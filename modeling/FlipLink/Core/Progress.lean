/-
# `FlipLink.Core.Progress` — the reader comes back, and in bounded memory

Two things could keep `FrameReader` from serving a stream without end: a loop in
`next_frame` that does not end, and a buffer that grows.

The loop is taken apart into its turns (`turn`).  One that goes round again has dropped
a byte, so there are at most as many as there are bytes, and one more (`turns_eq`).

What stays in the buffer when `next_frame` returns `None` is a front on which `decode`
waits, and `decode` waits for no more than the largest frame.  A caller that asks until
`None` after each feed therefore holds at most that front and one chunk
(`served_bounded`), whatever the stream is.
-/
import FlipLink.Core.Resync
import FlipLink.Lib.Machine

namespace FlipLink

open Lib

namespace FrameReader

/-! ## The loop, turn by turn -/

/-- A turn of the loop of `next_frame`: it returns, or goes round with what it has left
in the buffer. -/
def turn (buf : List UInt8) : (Option OwnedFrame × List UInt8) ⊕ List UInt8 :=
  match decode buf with
  | .frame f used => .inl (some f, buf.drop used)
  | .needMore => .inl (none, buf)
  | .resync => if buf.isEmpty then .inl (none, buf) else .inr (buf.drop 1)

/-- What the loop returns within `n` turns. -/
def turns : Nat → List UInt8 → Option (Option OwnedFrame × List UInt8)
  | 0, _ => none
  | n + 1, buf =>
      match turn buf with
      | .inl r => some r
      | .inr rest => turns n rest

/-- The loop returns after at most one turn more than there are bytes. -/
theorem turns_eq : ∀ {n : Nat} {buf : List UInt8}, buf.length < n →
    turns n buf = some (nextLoop buf)
  | 0, _, h => absurd h (Nat.not_lt_zero _)
  | _ + 1, [], _ => rfl
  | n + 1, b :: rest, h => by
      cases hd : decode (b :: rest) with
      | frame f used => simp only [turns, turn, nextLoop, hd]
      | needMore => simp only [turns, turn, nextLoop, hd]
      | resync =>
          have hrest : turns n rest = some (nextLoop rest) := turns_eq (Nat.lt_of_succ_lt_succ h)
          simp only [turns, turn, nextLoop, hd, List.isEmpty_cons, List.drop_succ_cons,
            List.drop_zero, Bool.false_eq_true, if_false, hrest]

/-! ## What is left -/

/-- What `None` leaves is shorter than the largest frame. -/
theorem nextLoop_none {buf rest : List UInt8} (h : nextLoop buf = (none, rest)) :
    rest.length < 65548 ∧ decode rest = .needMore := by
  rw [nextLoop_eq] at h
  have hwait : decode rest = .needMore := codec.next_none_needMore h
  exact ⟨Nat.not_le.mp fun hlong => decode_ne_needMore hlong hwait, hwait⟩

/-! ## A caller that asks until `None` -/

/-- A reader, and whether its caller may feed it again: `next_frame` has returned `None`
since the last chunk. -/
structure Served where
  reader : FrameReader
  drained : Bool
  deriving DecidableEq, Repr

/-- The calls of a caller that feeds chunks of at most `c` bytes and asks for frames until
`None` after each of them; the events are the frames. -/
def served (c : Nat) : Machine Served Call OwnedFrame where
  step s
    | .feed chunk =>
        if s.drained ∧ chunk.length ≤ c then some (⟨s.reader.feed chunk, false⟩, []) else none
    | .nextFrame =>
        if s.drained then none
        else
          match s.reader.nextFrame with
          | (some f, r) => some (⟨r, false⟩, [f])
          | (none, r) => some (⟨r, true⟩, [])

/-- A drained reader holds less than the largest frame, any reader that and a chunk. -/
def Served.Small (c : Nat) (s : Served) : Prop :=
  s.reader.buf.length ≤ 65547 + c ∧ (s.drained = true → s.reader.buf.length ≤ 65547)

theorem Served.Small.step {c : Nat} {s s' : Served} {call : Call} {fs : List OwnedFrame}
    (h : s.Small c) (hs : (served c).step s call = some (s', fs)) : s'.Small c := by
  cases call with
  | feed chunk =>
      simp only [served] at hs
      split_ifs at hs with hcond
      cases hs
      obtain ⟨hdrained, hchunk⟩ := hcond
      have hbuf := h.2 hdrained
      refine ⟨?_, fun hd => Bool.noConfusion hd⟩
      show (s.reader.buf ++ chunk).length ≤ 65547 + c
      rw [List.length_append]
      omega
  | nextFrame =>
      have hle : s.reader.nextFrame.2.buf.length ≤ s.reader.buf.length := by
        have hsuffix := codec.next_suffix s.reader.buf
        rw [← nextLoop_eq] at hsuffix
        exact hsuffix.length_le
      have hbound := Nat.le_trans hle h.1
      simp only [served] at hs
      split_ifs at hs
      split at hs
      · rename_i f r hn
        cases hs
        rw [hn] at hbound
        exact ⟨hbound, fun hd => Bool.noConfusion hd⟩
      · rename_i r hn
        cases hs
        rw [hn] at hbound
        have hnone : nextLoop s.reader.buf = (none, r.buf) := by
          have hfst := congrArg Prod.fst hn
          have hsnd := congrArg (fun p => p.2.buf) hn
          exact Prod.ext hfst hsnd
        exact ⟨hbound, fun _ => Nat.le_of_lt_succ (nextLoop_none hnone).1⟩

/-- The buffer is bounded in every state of every run. -/
theorem served_bounded {c : Nat} {calls : List Call} {s : Served} {fs : List OwnedFrame}
    (hrun : (served c).run ⟨new, true⟩ calls = some (s, fs)) :
    s.reader.buf.length ≤ 65547 + c := by
  have hnew : Served.Small c ⟨new, true⟩ := ⟨Nat.zero_le _, fun _ => Nat.zero_le _⟩
  exact (Machine.run_invariant (fun h hs => h.step hs) hnew hrun).1

/-- **The reader makes progress in bounded memory.**  Whatever is in the buffer, the loop
of `next_frame` returns, and leaves a suffix of the buffer.  A frame is decoded from the
bytes right before that suffix; on `None` the suffix is one on which `decode` waits,
shorter than the largest frame.  So in every state of every run of a caller that feeds
chunks of at most `c` bytes and asks until `None` after each, there are at most
`65547 + c` bytes in the buffer. -/
theorem progress_in_bounded_memory :
    (∀ r : FrameReader,
      turns (r.buf.length + 1) r.buf = some (r.nextFrame.1, r.nextFrame.2.buf) ∧
      r.nextFrame.2.buf <:+ r.buf ∧
      (∀ f, r.nextFrame.1 = some f → ∃ dropped bytes,
        r.buf = dropped ++ (bytes ++ r.nextFrame.2.buf) ∧
          decode (bytes ++ r.nextFrame.2.buf) = .frame f bytes.length) ∧
      (r.nextFrame.1 = none →
        r.nextFrame.2.buf.length < headerSize + maxPayload.toNat + crcSize ∧
          decode r.nextFrame.2.buf = .needMore)) ∧
    ∀ (c : Nat) (calls : List Call) (s : Served) (fs : List OwnedFrame),
      (served c).run ⟨new, true⟩ calls = some (s, fs) → s.reader.buf.length ≤ 65547 + c := by
  refine ⟨fun r => ⟨turns_eq (Nat.lt_succ_self _), ?_, ?_, ?_⟩, fun c calls s fs => served_bounded⟩
  · have hsuffix := codec.next_suffix r.buf
    rwa [← nextLoop_eq] at hsuffix
  · intro f hf
    have hnext : codec.next r.buf = (some f, r.nextFrame.2.buf) := by
      rw [← nextLoop_eq]
      exact Prod.ext hf rfl
    exact codec.next_some_split hnext
  · intro hnone
    exact nextLoop_none (Prod.ext hnone rfl)

/-- Half a PONG, its other half and a byte of the next, in chunks of eight. -/
theorem progress_in_bounded_memory_pong :
    let calls : List Call := [.feed (pongFrame.wire.take 8), .nextFrame,
      .feed (pongFrame.wire.drop 8 ++ [0xA6]), .nextFrame, .nextFrame]
    ∃ s, (served 8).run ⟨new, true⟩ calls = some (s, [pongFrame]) ∧ s.reader.buf = [0xA6] ∧
      s.reader.buf.length ≤ 65547 + 8 := by
  intro calls
  have hrun : (served 8).run ⟨new, true⟩ calls = some (⟨⟨[0xA6]⟩, true⟩, [pongFrame]) := by
    decide +kernel
  exact ⟨_, hrun, rfl, progress_in_bounded_memory.2 8 calls _ _ hrun⟩

end FrameReader

end FlipLink
