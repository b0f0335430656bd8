import NcsExamples.Lib.ChunkedText
import NcsExamples.SocketEcho.Client

/-! # Socket echo client: what the peer reads

`send_tcp_data` writes its strings as chunks, with an empty one at the end. A peer that reads the
stream of the connection chunk by chunk gets the strings back, once for each message that `send` has
taken as a whole, as long as no message was torn. -/

namespace NcsExamples.SocketEcho

/-- The message is the strings in chunks: nothing of it was cut off. -/
theorem message_eq_encode : message = ChunkedText.encode content := by decide

/-- The peer reads the strings off a message. -/
theorem decode_message : ChunkedText.decode message = some (content, []) := by
  have hnonempty : ∀ data ∈ content, data ≠ [] := by decide
  have hread := ChunkedText.decode_encode hnonempty []
  rw [List.append_nil, ← message_eq_encode] at hread
  exact hread

/-- **The peer reads the strings.** In a run in which no `send` takes a byte after one that took a
message in part, the peer reads the strings once for each message that was taken as a whole, and has
the beginning of one more message at most. -/
theorem peer_reads_content (is : List Input) (c : Client) (hrun : client.run is = some c)
    (hsends : NoneAfterShort message.length (sendCounts is)) :
    ∃ p, p <+: message ∧ p ≠ message ∧ ChunkedText.messages c.stream =
      (List.replicate ((sendCounts is).count message.length) content, p) := by
  obtain ⟨hstream, hle⟩ := stream_run hrun
  have hstream' : c.stream = taken message (sendCounts is) := hstream
  obtain ⟨p, hp, hne, htaken⟩ := exists_taken_eq (by decide) hle hsends
  refine ⟨p, hp, hne, ?_⟩
  rw [hstream', htaken, ChunkedText.messages_replicate decode_message hp hne]

/-- Two whole messages, a failing `send` between them and a short one at the end. -/
theorem peer_reads_content_twice : ∃ c p, client.run (linkUp ++ [.iterate (.sent 37),
      .iterate .error, .iterate (.sent 37), .iterate (.sent 5)]) = some c ∧
    ChunkedText.messages c.stream = ([content, content], p) := by
  obtain ⟨p, -, -, hread⟩ := peer_reads_content (linkUp ++ [.iterate (.sent 37), .iterate .error,
    .iterate (.sent 37), .iterate (.sent 5)]) _ rfl (by decide)
  exact ⟨_, p, rfl, hread⟩

end NcsExamples.SocketEcho
