/-
# `FlipLink.Core.Unknown` — frames of an unknown type

A frame whose type byte is none of `MsgType` is intact: its CRC is right, its length is
known, and a reader could pass over it.  `decode` gives it the verdict that its
documentation keeps for bad magic and bad CRC, and `next_frame` drops one byte and looks
into the frame.  What it finds there depends on the frame's contents and on what follows
it.

The first offset at which `decode` does not ask for another byte to be dropped decides
(`garbage_spec`, `garbage_eq`).  The frame is passed over exactly if that offset is
behind it, or if nothing but waiting comes of it and nothing would have come of the rest
(`skipped_as_unit_iff`).
-/
import FlipLink.Core.Resync
import FlipLink.Proto.Image

namespace FlipLink

open Lib

/-! ## The first offset that is not dropped -/

namespace FrameReader

/-- Every byte of the garbage is dropped, and the one behind it is not. -/
theorem garbage_spec : ∀ buf : List UInt8,
    (∀ i < garbage buf, decode (buf.drop i) = .resync) ∧
      decode (buf.drop (garbage buf)) ≠ .resync
  | [] => ⟨fun i hi => absurd hi (Nat.not_lt_zero i), by decide⟩
  | b :: rest => by
      rw [garbage]
      cases hd : decode (b :: rest) with
      | frame f used =>
          refine ⟨fun i hi => absurd hi (Nat.not_lt_zero i), ?_⟩
          rw [List.drop_zero, hd]
          intro h
          cases h
      | needMore =>
          refine ⟨fun i hi => absurd hi (Nat.not_lt_zero i), ?_⟩
          rw [List.drop_zero, hd]
          intro h
          cases h
      | resync =>
          obtain ⟨hbefore, hat⟩ := garbage_spec rest
          refine ⟨fun i hi => ?_, hat⟩
          cases i with
          | zero => exact hd
          | succ i => exact hbefore i (Nat.lt_of_succ_lt_succ hi)

theorem garbage_eq {buf : List UInt8} {j : Nat} (hbefore : ∀ i < j, decode (buf.drop i) = .resync)
    (hat : decode (buf.drop j) ≠ .resync) : garbage buf = j := by
  obtain ⟨hbefore', hat'⟩ := garbage_spec buf
  rcases Nat.lt_trichotomy (garbage buf) j with h | h | h
  · exact absurd (hbefore _ h) hat'
  · exact h
  · exact absurd (hbefore' j h) hat

/-- What `next_frame` returns is decided there. -/
theorem nextLoop_eq_garbage : ∀ buf : List UInt8,
    (nextLoop buf).1 =
      match decode (buf.drop (garbage buf)) with
      | .frame f _ => some f
      | _ => none
  | [] => rfl
  | b :: rest => by
      rw [nextLoop, garbage]
      cases hd : decode (b :: rest) with
      | frame f used =>
          dsimp only
          rw [List.drop_zero, hd]
      | needMore =>
          dsimp only
          rw [List.drop_zero, hd]
      | resync => exact nextLoop_eq_garbage rest

/-- The frames of a list of calls, and of a drain after them, are those of a drain of
everything that is fed. -/
theorem run_drain_fed (calls : List Call) :
    (run new calls).1 ++ (run new calls).2.drain.1 = (codec.drain (fed calls)).1 := by
  have h := congrArg Prod.fst (run_drain_chunks calls)
  rwa [new_feed, drain_eq ⟨fed calls⟩] at h

theorem head_drain (buf : List UInt8) : (codec.drain buf).1.head? = (nextLoop buf).1 := by
  rw [nextLoop_eq]
  cases h : codec.next buf with
  | mk o r =>
    cases o with
    | none => rw [codec.drain_of_none h]; rfl
    | some f => rw [codec.drain_of_some h]; rfl

end FrameReader

/-! ## An unknown frame -/

/-- The bytes of a frame that is intact, of a type that is not known. -/
structure UnknownFrame (w : List UInt8) : Prop where
  magic : ofLe16 (slice w 0 2) = frameMagic
  length_le : lengthField w ≤ maxPayload
  size : w.length = frameSize w
  crc : ofLe16 (slice w (headerSize + (lengthField w).toNat)
      (headerSize + (lengthField w).toNat + 2))
    = crc16CcittFalse (slice w 2 (headerSize + (lengthField w).toNat))
  typ : ¬(1 ≤ w.getD 3 0 ∧ w.getD 3 0 ≤ 11)

theorem MsgType.fromU8_eq_none {v : UInt8} (h : ¬(1 ≤ v ∧ v ≤ 11)) : MsgType.fromU8 v = none := by
  cases hv : MsgType.fromU8 v with
  | none => rfl
  | some t =>
      rw [← MsgType.toU8_of_fromU8 hv] at h
      refine absurd ?_ h
      cases t <;> decide

namespace UnknownFrame

variable {w rest : List UInt8}

/-- `decode` says of it what it says of a bad CRC. -/
theorem decode_resync (h : UnknownFrame w) (rest : List UInt8) :
    decode (w ++ rest) = .resync := by
  have hw : decode w = .resync := by
    rw [decode_whole h.magic (UInt32.not_lt.mpr h.length_le) (Nat.le_of_eq h.size.symm),
      decodeWhole, if_neg (not_not.mpr h.crc), MsgType.fromU8_eq_none h.typ]
  have hfinal : decode w ≠ .needMore := by
    rw [hw]
    intro h
    cases h
  rw [decode_append rest hfinal, hw]

/-! ## When it is skipped -/

/-- The frame `w` is skipped as a unit by a reader that gets it and then `rest`, in
whatever chunks: no frame that begins strictly inside it is returned, and the next one is
that of a reader that has got only `rest`. -/
def SkippedAsUnit (w rest : List UInt8) : Prop :=
  ∀ calls : List FrameReader.Call, FrameReader.fed calls = w ++ rest →
    (∀ x ∈ FrameReader.runAt 0 FrameReader.new calls, ¬(0 < x.1 ∧ x.1 < w.length)) ∧
    ((FrameReader.run .new calls).1 ++ (FrameReader.run .new calls).2.drain.1).head?
      = (FrameReader.nextFrame ⟨rest⟩).1

/-- At no offset strictly inside `w` there is a frame or the beginning of one. -/
def NothingInside (w rest : List UInt8) : Prop :=
  ∀ i, 0 < i → i < w.length → decode ((w ++ rest).drop i) = .resync

/-- The first offset strictly inside `w` that is not dropped is the beginning of something
that has not come to its end. -/
def WaitsInside (w rest : List UInt8) : Prop :=
  ∃ j, 0 < j ∧ j < w.length ∧ (∀ i, 0 < i → i < j → decode ((w ++ rest).drop i) = .resync) ∧
    decode ((w ++ rest).drop j) = .needMore

/-- Before every frame in `rest` there is the beginning of something that has not come to
its end. -/
def Barren (rest : List UInt8) : Prop :=
  ∀ k f used, decode (rest.drop k) = .frame f used → ∃ j < k, decode (rest.drop j) = .needMore

/-- From bytes that are barren no frame comes, and only from them. -/
theorem barren_iff : Barren rest ↔ (FrameReader.nextLoop rest).1 = none := by
  obtain ⟨hbefore, hat⟩ := FrameReader.garbage_spec rest
  rw [FrameReader.nextLoop_eq_garbage]
  cases hd : decode (rest.drop (FrameReader.garbage rest)) with
  | frame f used =>
      refine ⟨fun h => ?_, fun h => nomatch h⟩
      obtain ⟨j, hj, hwait⟩ := h _ f used hd
      rw [hbefore j hj] at hwait
      cases hwait
  | needMore =>
      refine ⟨fun _ => rfl, fun _ k f used hk => ⟨_, ?_, hd⟩⟩
      rcases Nat.lt_trichotomy (FrameReader.garbage rest) k with h | rfl | h
      · exact h
      · rw [hd] at hk
        cases hk
      · rw [hbefore k h] at hk
        cases hk
  | resync => exact absurd hd hat

theorem of_nothing_inside (h : UnknownFrame w) (hno : NothingInside w rest) :
    SkippedAsUnit w rest := by
  intro calls hfed
  constructor
  · rintro x hx ⟨hpos, hlt⟩
    obtain ⟨used, hd⟩ := @FrameReader.runAt_begins (FrameReader.fed calls) _ _ _ _
      (Nat.zero_le _) rfl hx
    rw [hfed, hno x.1 hpos hlt] at hd
    cases hd
  · have hskip : codec.next (w ++ rest) = codec.next rest := by
      refine codec.next_skip fun i hi => ?_
      cases i with
      | zero => exact h.decode_resync rest
      | succ i => exact hno _ (Nat.succ_pos i) hi
    rw [FrameReader.run_drain_fed, hfed, codec.drain_congr hskip, FrameReader.head_drain]
    rfl

/-- A reader that has got everything returns the frame that begins inside. -/
theorem not_skipped_of_frame {f : OwnedFrame} {used : Nat}
    (hpos : 0 < FrameReader.garbage (w ++ rest)) (hlt : FrameReader.garbage (w ++ rest) < w.length)
    (hd : decode ((w ++ rest).drop (FrameReader.garbage (w ++ rest))) = .frame f used) :
    ¬ SkippedAsUnit w rest := by
  intro hskip
  have hfed : FrameReader.fed [.feed (w ++ rest), .nextFrame] = w ++ rest := List.append_nil _
  have hverdict := FrameReader.nextLoop_eq_garbage (w ++ rest)
  rw [hd] at hverdict
  have hnext : FrameReader.nextFrame ⟨w ++ rest⟩
      = (some f, ⟨(FrameReader.nextLoop (w ++ rest)).2⟩) := Prod.ext hverdict rfl
  have hmem : (FrameReader.garbage (w ++ rest), f)
      ∈ FrameReader.runAt 0 .new [.feed (w ++ rest), .nextFrame] := by
    show _ ∈ FrameReader.runAt 0 (FrameReader.new.feed (w ++ rest)) [.nextFrame]
    rw [FrameReader.new_feed, FrameReader.runAt, hnext]
    dsimp only
    rw [Nat.zero_add]
    exact List.mem_cons_self
  exact (hskip _ hfed).1 _ hmem ⟨hpos, hlt⟩

/-- The offset at which the reader waits. -/
theorem garbage_of_waits (h : UnknownFrame w) (hw : WaitsInside w rest) :
    decode ((w ++ rest).drop (FrameReader.garbage (w ++ rest))) = .needMore := by
  obtain ⟨j, hj, hjlt, hbefore, hwait⟩ := hw
  have hgarbage : FrameReader.garbage (w ++ rest) = j := by
    refine FrameReader.garbage_eq (fun i hi => ?_) ?_
    · cases i with
      | zero => exact h.decode_resync rest
      | succ i => exact hbefore _ (Nat.succ_pos i) hi
    · rw [hwait]
      intro h
      cases h
  rw [hgarbage, hwait]

/-- A reader that waits inside returns nothing. -/
theorem of_waits_inside (h : UnknownFrame w) (hw : WaitsInside w rest) :
    SkippedAsUnit w rest ↔ Barren rest := by
  have hverdict := FrameReader.nextLoop_eq_garbage (w ++ rest)
  rw [h.garbage_of_waits hw] at hverdict
  have hnext : codec.next (w ++ rest) = (none, (codec.next (w ++ rest)).2) :=
    Prod.ext ((congrArg Prod.fst (FrameReader.nextLoop_eq _)).symm.trans hverdict) rfl
  have hnone : ∀ calls : List FrameReader.Call, FrameReader.fed calls = w ++ rest →
      (FrameReader.run .new calls).1 ++ (FrameReader.run .new calls).2.drain.1 = [] := by
    intro calls hfed
    rw [FrameReader.run_drain_fed, hfed, codec.drain_of_none hnext]
  rw [barren_iff]
  constructor
  · intro hskip
    have hfed : FrameReader.fed [.feed (w ++ rest)] = w ++ rest := List.append_nil _
    have hhead := (hskip _ hfed).2
    rw [hnone _ hfed] at hhead
    exact hhead.symm
  · intro hbarren calls hfed
    constructor
    · intro x hx
      have hrun := (List.append_eq_nil_iff.mp (hnone calls hfed)).1
      rw [← FrameReader.runAt_run calls 0, List.map_eq_nil_iff] at hrun
      rw [hrun] at hx
      cases hx
    · rw [hnone calls hfed]
      exact hbarren.symm

/-- **A frame of an unknown type.**  It is skipped as a unit exactly if there is no frame
and no beginning of one strictly inside it, or if the reader waits inside it and no frame
would have come from what follows. -/
theorem skipped_as_unit_iff (h : UnknownFrame w) :
    SkippedAsUnit w rest ↔ NothingInside w rest ∨ WaitsInside w rest ∧ Barren rest := by
  obtain ⟨hbefore, hat⟩ := FrameReader.garbage_spec (w ++ rest)
  -- the first byte is dropped
  have hpos : 0 < FrameReader.garbage (w ++ rest) := by
    refine Nat.pos_of_ne_zero fun h0 => hat ?_
    rw [h0, List.drop_zero]
    exact h.decode_resync rest
  by_cases hlt : FrameReader.garbage (w ++ rest) < w.length
  · have hnot : ¬ NothingInside w rest := fun hno => hat (hno _ hpos hlt)
    cases hd : decode ((w ++ rest).drop (FrameReader.garbage (w ++ rest))) with
    | frame f used =>
        refine ⟨fun hskip => absurd hskip (not_skipped_of_frame hpos hlt hd), ?_⟩
        rintro (hno | ⟨hwaits, -⟩)
        · exact absurd hno hnot
        · rw [h.garbage_of_waits hwaits] at hd
          cases hd
    | needMore =>
        have hwaits : WaitsInside w rest := ⟨_, hpos, hlt, fun i _ hi => hbefore i hi, hd⟩
        rw [h.of_waits_inside hwaits]
        exact ⟨fun hbarren => .inr ⟨hwaits, hbarren⟩,
          fun hcond => hcond.elim (fun hno => absurd hno hnot) And.right⟩
    | resync => exact absurd hd hat
  · have hno : NothingInside w rest := fun i _ hi =>
      hbefore i (Nat.lt_of_lt_of_le hi (Nat.not_lt.mp hlt))
    exact ⟨fun _ => .inl hno, fun _ => h.of_nothing_inside hno⟩

/-- A frame of type 12. -/
def newerFrame (payload : List UInt8) : List UInt8 :=
  let covered := [frameVersion, 12, 0] ++ le16 7 ++ le32 (.ofNat payload.length) ++ payload
  le16 frameMagic ++ covered ++ le16 (crc16CcittFalse covered)

theorem newerFrame_unknown : UnknownFrame (newerFrame []) :=
  ⟨by decide, by decide, by decide, by decide +kernel, by decide⟩

/-- One without a payload, and a PONG behind it. -/
theorem skipped_as_unit_newer : SkippedAsUnit (newerFrame []) FrameReader.pongFrame.wire := by
  refine (skipped_as_unit_iff newerFrame_unknown).mpr (.inl ?_)
  have hinside : ∀ i < 13, 0 < i →
      decode ((newerFrame [] ++ FrameReader.pongFrame.wire).drop i) = .resync := by decide +kernel
  exact fun i hpos hi => hinside i hi hpos

/-- One that carries a PING: the reader returns the PING. -/
theorem ping_inside :
    UnknownFrame (newerFrame pingFrame.wire) ∧ ¬ SkippedAsUnit (newerFrame pingFrame.wire) [] ∧
      FrameReader.runAt 0 .new [.feed (newerFrame pingFrame.wire), .nextFrame]
        = [(11, pingFrame)] := by
  have hrun : FrameReader.runAt 0 .new [.feed (newerFrame pingFrame.wire), .nextFrame]
      = [(11, pingFrame)] := by decide +kernel
  refine ⟨⟨by decide +kernel, by decide +kernel, by decide +kernel, by decide +kernel,
    by decide +kernel⟩, fun hskip => ?_, hrun⟩
  have hfed : FrameReader.fed [.feed (newerFrame pingFrame.wire), .nextFrame]
      = newerFrame pingFrame.wire ++ [] := rfl
  refine (hskip _ hfed).1 (11, pingFrame) ?_ (by decide +kernel)
  rw [hrun]
  exact List.mem_singleton_self _

end UnknownFrame

end FlipLink
