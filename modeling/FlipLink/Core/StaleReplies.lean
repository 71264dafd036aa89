/-
# `FlipLink.Core.StaleReplies` — a reply belongs to its call

A call that has timed out may be answered after all, and the reader of a `DeviceLink`
keeps its bytes from one call to the next.  What keeps the calls apart is the seq.  It
comes round after 65536 calls; up to there no two calls have the same, and where the
device answers only calls that have been made (`Answers`), a frame with the seq of a call
has been sent after it (`Inv.current`).

The loops of `device.rs` pass over every frame that is not the call's.  So what a call
returns is a function of its own frames among all that the host has read, of the clock
and of what `read` returns (`answer`): the frames of other calls take turns of the loop
and make no other difference (`Turned`).
-/
import FlipLink.Core.DeviceLink
import Mathlib.Data.List.Nodup

namespace FlipLink.DeviceLink

open Lib

/-- The frames that a reader makes of the bytes. -/
def framesIn (bytes : List UInt8) : List OwnedFrame := (FrameReader.new.feed bytes).drain.1

theorem framesIn_eq (bytes : List UInt8) : framesIn bytes = (codec.drain bytes).1 := by
  rw [framesIn, FrameReader.new_feed, FrameReader.drain_eq]

theorem framesIn_append (a b : List UInt8) :
    framesIn (a ++ b) = framesIn a ++ (codec.drain ((codec.drain a).2 ++ b)).1 := by
  rw [framesIn_eq, framesIn_eq, codec.drain_append]

/-- The device answers calls that have been made: no frame of what it has sent has the seq
of another. -/
def Answers (s : State) : Label → Prop
  | .sends bytes => ∀ f ∈ framesIn (s.sent ++ bytes), f.seq ∈ s.made
  | _ => True

/-- What the device has sent is the front of these frames, all of calls that have been
made. -/
def SendsFrames (fs : List Frame) (s : State) : Label → Prop
  | .sends bytes =>
      s.sent ++ bytes <+: fs.flatMap Frame.wire ∧
        ∀ f ∈ fs, f.payload.length ≤ 0xFFFF ∧ f.seq ∈ s.made
  | _ => True

instance (fs : List Frame) (s : State) : ∀ l : Label, Decidable (SendsFrames fs s l)
  | .sends _ => inferInstanceAs (Decidable (_ ∧ _))
  | .call _ | .wrote _ | .turn .. => inferInstanceAs (Decidable True)

/-- A device that sends frames of calls that have been made, cut as it may be. -/
theorem answers_of_frames {fs : List Frame} {s : State} : ∀ {l : Label},
    SendsFrames fs s l → Answers s l
  | .call _, _ | .wrote _, _ | .turn .., _ => trivial
  | .sends bytes, ⟨⟨more, hmore⟩, hfs⟩ => by
      intro f hf
      have hall : framesIn (fs.flatMap Frame.wire) = fs := by
        have h := codec_drain_wires (fun f hf => (hfs f hf).1) []
        rw [List.append_nil] at h
        rw [framesIn_eq, h]
        exact List.append_nil fs
      rw [← hmore, framesIn_append] at hall
      exact (hfs f (hall ▸ List.mem_append_left _ hf)).2

/-- The frames for a call among all that the host has read. -/
def own (c : Call) (seq : UInt16) (s : State) : List OwnedFrame :=
  (framesIn s.read).filter (c.takes seq)

/-- What a call returns when these frames are for it. -/
def answer (b : Bodies) (c : Call) (seq : UInt16) (own : List OwnedFrame) (elapsed : Bool)
    (read : Except String Nat) : Option (Except String Reply) :=
  match own with
  | f :: _ => some (c.finish b f)
  | [] =>
      if elapsed then some (.error (c.timedOut seq))
      else
        match read with
        | .error e => some (.error e)
        | .ok _ => none

/-- The reply is what the frame says. -/
def Decoded (b : Bodies) (f : OwnedFrame) : Call → Reply → Prop
  | .hello, .caps caps => f.typ = .caps ∧ b.caps f.payload = .ok caps
  | .request .., .resp resp => f.typ = .resp ∧ b.resp f.payload = .ok resp
  | .ping _, .pong payload => f.typ = .pong ∧ f.payload = payload
  | _, _ => False

/-- A turn of the loop that waits. -/
inductive Turned (b : Bodies) (s : State) (c : Call) (seq : UInt16) (elapsed : Bool)
    (read : Except String Nat) : State → List Event → Prop where
  /-- A frame that is not for the call is thrown away, and nothing else is different. -/
  | discarded {f : OwnedFrame} {reader : FrameReader}
      (hnext : s.link.reader.nextFrame = (some f, reader)) (hother : c.takes seq f = false)
      (hshorter : reader.buf.length < s.link.reader.buf.length) :
      Turned b s c seq elapsed read { s with link := { s.link with reader } } []
  | answered {s' : State} {r : Except String Reply}
      (hanswer : answer b c seq (own c seq s) elapsed read = some r) (hidle : s'.phase = .idle) :
      Turned b s c seq elapsed read s' [.returned c seq r]
  /-- There is no frame for the call, and more is read. -/
  | waiting {s' : State} {n : Nat} (hread : read = .ok n)
      (hanswer : answer b c seq (own c seq s) elapsed read = none) (hphase : s'.phase = s.phase)
      (hmore : s'.read = s.read ++ s.incoming.take (min n 512)) (hsent : s'.sent = s.sent) :
      Turned b s c seq elapsed read s' []

/-! ## What a step can do -/

/-- The link when a call has taken its seq. -/
def State.called (s : State) : State :=
  { s with
    link := s.link.allocSeq.2
    made := s.made ++ [s.link.nextSeq]
    before := s.sent }

inductive Move (b : Bodies) (s : State) : Label → State → List Event → Prop where
  | sends {bytes : List UInt8} :
      Move b s (.sends bytes) { s with incoming := s.incoming ++ bytes } []
  | requested {c : Call} {bytes : List UInt8} :
      Move b s (.call c) { s.called with phase := .writing c s.link.nextSeq }
        [.requested s.link.nextSeq bytes]
  | refused {c : Call} {e : String} (hidle : s.phase = .idle) :
      Move b s (.call c) s.called [.returned c s.link.nextSeq (.error e)]
  | written {c : Call} {seq : UInt16} (hp : s.phase = .writing c seq) :
      Move b s (.wrote (.ok ())) { s with phase := .awaiting c seq } []
  | failed {c : Call} {seq : UInt16} {e : String} (hp : s.phase = .writing c seq) :
      Move b s (.wrote (.error e)) { s with phase := .idle } [.returned c seq (.error e)]
  | discarded {c : Call} {seq : UInt16} {f : OwnedFrame} {reader : FrameReader} {elapsed : Bool}
      {read : Except String Nat} (hp : s.phase = .awaiting c seq)
      (hnext : s.link.reader.nextFrame = (some f, reader)) (hother : c.takes seq f = false) :
      Move b s (.turn elapsed read) { s with link := { s.link with reader } } []
  | taken {c : Call} {seq : UInt16} {f : OwnedFrame} {reader : FrameReader} {elapsed : Bool}
      {read : Except String Nat} (hp : s.phase = .awaiting c seq)
      (hnext : s.link.reader.nextFrame = (some f, reader)) (htakes : c.takes seq f = true) :
      Move b s (.turn elapsed read) { s with link := { s.link with reader }, phase := .idle }
        [.returned c seq (c.finish b f)]
  | timedOut {c : Call} {seq : UInt16} {reader : FrameReader} {read : Except String Nat}
      (hp : s.phase = .awaiting c seq) (hnext : s.link.reader.nextFrame = (none, reader)) :
      Move b s (.turn true read) { s with link := { s.link with reader }, phase := .idle }
        [.returned c seq (.error (c.timedOut seq))]
  | readFailed {c : Call} {seq : UInt16} {reader : FrameReader} {e : String}
      (hp : s.phase = .awaiting c seq) (hnext : s.link.reader.nextFrame = (none, reader)) :
      Move b s (.turn false (.error e)) { s with link := { s.link with reader }, phase := .idle }
        [.returned c seq (.error e)]
  | read {c : Call} {seq : UInt16} {reader : FrameReader} {n : Nat}
      (hp : s.phase = .awaiting c seq) (hnext : s.link.reader.nextFrame = (none, reader)) :
      Move b s (.turn false (.ok n))
        { s with
          link := { s.link with reader := reader.feed (s.incoming.take (min n 512)) }
          incoming := s.incoming.drop (min n 512)
          read := s.read ++ s.incoming.take (min n 512) } []

theorem step_moves {b : Bodies} {s s' : State} {l : Label} {es : List Event}
    (hs : (machine b).step s l = some (s', es)) : Move b s l s' es := by
  change step b s l = some (s', es) at hs
  cases l with
  | sends bytes =>
      cases hs
      exact .sends
  | call c =>
      dsimp only [step] at hs
      split at hs
      · rename_i hidle
        rw [startCall] at hs
        dsimp only [allocSeq] at hs
        split at hs
        · cases hs
          exact .requested
        · cases hs
          exact .refused hidle
      · cases hs
  | wrote r =>
      dsimp only [step] at hs
      split at hs
      · rename_i hp
        cases hs
        exact .written hp
      · rename_i hp
        cases hs
        exact .failed hp
      · cases hs
  | turn elapsed read =>
      dsimp only [step] at hs
      split at hs
      · rename_i c seq hp
        rw [turn] at hs
        split at hs
        · rename_i f reader hnext
          dsimp only at hs
          split_ifs at hs with htakes
          · cases hs
            exact .taken hp hnext htakes
          · cases hs
            exact .discarded hp hnext (Bool.eq_false_iff.mpr htakes)
        · rename_i reader hnext
          dsimp only at hs
          split_ifs at hs with helapsed
          · cases hs
            rw [helapsed]
            exact .timedOut hp hnext
          · rw [Bool.eq_false_iff.mpr helapsed]
            split at hs
            · cases hs
              exact .readFailed hp hnext
            · cases hs
              exact .read hp hnext
      · cases hs

theorem State.called_made_length (s : State) : s.called.made.length = s.made.length + 1 :=
  List.length_append

theorem made_length {b : Bodies} {s s' : State} {l : Label} {es : List Event}
    (hm : Move b s l s' es) : s'.made.length = s.made.length + [l].countP Label.isCall := by
  cases hm with
  | requested | refused => exact s.called_made_length
  | _ => rfl

/-! ## The seqs of the calls -/

/-- The seq of the call that so many have been made before. -/
def seqOf (n : Nat) : UInt16 := UInt16.ofNat (n + 1)

theorem seqOf_succ (n : Nat) : seqOf n + 1 = seqOf (n + 1) := by
  rw [seqOf, seqOf, UInt16.ofNat_add (n + 1) 1]
  rfl

theorem seqOf_injective {m n : Nat} (hm : m < 65536) (hn : n < 65536) (h : seqOf m = seqOf n) :
    m = n := by
  have heq := congrArg UInt16.toNat h
  rw [seqOf, seqOf, UInt16.toNat_ofNat', UInt16.toNat_ofNat'] at heq
  omega

/-- The seqs of the first so many calls. -/
def seqsOf (n : Nat) : List UInt16 := (List.range n).map seqOf

theorem seqsOf_succ (n : Nat) : seqsOf (n + 1) = seqsOf n ++ [seqOf n] := by
  rw [seqsOf, List.range_succ, List.map_append]
  rfl

theorem seqsOf_nodup {n : Nat} (hn : n ≤ 65536) : (seqsOf n).Nodup := by
  refine List.Nodup.map_on ?_ List.nodup_range
  intro i hi j hj h
  have := List.mem_range.mp hi
  have := List.mem_range.mp hj
  exact seqOf_injective (by omega) (by omega) h

/-- The next call has a seq of its own. -/
theorem seqOf_not_mem {n : Nat} (hn : n < 65536) : seqOf n ∉ seqsOf n := by
  have hdup := seqsOf_nodup (show n + 1 ≤ 65536 from hn)
  rw [seqsOf_succ] at hdup
  exact fun h => (List.disjoint_of_nodup_append hdup h) (List.mem_singleton_self _)

/-! ## What holds of every run -/

/-- The call that is being made. -/
def Phase.current : Phase → Option (Call × UInt16)
  | .idle => none
  | .writing c seq | .awaiting c seq => some (c, seq)

theorem current_of_awaiting {s : State} {c : Call} {seq : UInt16}
    (hp : s.phase = .awaiting c seq) : s.phase.current = some (c, seq) := by
  rw [hp]
  rfl

theorem takes_seq {c : Call} {seq : UInt16} {f : OwnedFrame} (h : c.takes seq f = true) :
    f.seq = seq := by
  cases c with
  | hello | request => exact of_decide_eq_true h
  | ping => exact (of_decide_eq_true h).2

/-- The reader has returned some of the frames, none of them for the call being made. -/
def Passed (s : State) : Prop :=
  ∃ taken, codec.At s.read taken s.link.reader.buf ∧
    ∀ {c seq}, s.phase.current = some (c, seq) → ∀ f ∈ taken, c.takes seq f = false

structure Inv (s : State) : Prop where
  made : s.made = seqsOf s.made.length
  nextSeq : s.link.nextSeq = seqOf s.made.length
  answers : ∀ f ∈ framesIn s.sent, f.seq ∈ s.made
  since : s.before <+: s.sent
  passed : Passed s
  current : ∀ {c seq}, s.phase.current = some (c, seq) →
    s.made.getLast? = some seq ∧ ∀ f ∈ framesIn s.before, f.seq ≠ seq

theorem inv_initial : Inv .initial where
  made := rfl
  nextSeq := rfl
  answers := fun _ h => (by cases h)
  since := List.prefix_refl _
  passed := ⟨[], codec.at_nil, fun h => (by cases h)⟩
  current := fun h => (by cases h)

namespace Inv

variable {b : Bodies} {s s' : State} {l : Label} {es : List Event} {c : Call} {seq : UInt16}

theorem nodup (h : Inv s) (hn : s.made.length ≤ 65536) : s.made.Nodup := by
  rw [h.made]
  exact seqsOf_nodup hn

/-- Nothing that the device has sent has the next seq. -/
theorem fresh (h : Inv s) (hn : s.made.length < 65536) {f : OwnedFrame}
    (hf : f ∈ framesIn s.sent) : f.seq ≠ s.link.nextSeq := by
  intro heq
  have hmem : f.seq ∈ seqsOf s.made.length := by
    rw [← h.made]
    exact h.answers f hf
  rw [heq, h.nextSeq] at hmem
  exact seqOf_not_mem hn hmem

/-- What the reader has returned is among what the device has sent. -/
theorem taken_sent {taken : List OwnedFrame} (hat : codec.At s.read taken s.link.reader.buf)
    {f : OwnedFrame} (hf : f ∈ taken) : f ∈ framesIn s.sent := by
  rw [State.sent, framesIn_append, framesIn_eq, hat.frames]
  exact List.mem_append_left _ (List.mem_append_left _ hf)

/-- A call takes its seq. -/
theorem called (h : Inv s) (hn : s.made.length < 65536) {p : Phase}
    (hp : ∀ {c seq}, p.current = some (c, seq) → seq = s.link.nextSeq) :
    Inv { s.called with phase := p } where
  made := by
    show s.made ++ [s.link.nextSeq] = seqsOf (s.made ++ [s.link.nextSeq]).length
    rw [List.length_append, List.length_singleton, seqsOf_succ, ← h.made, h.nextSeq]
  nextSeq := by
    show s.link.nextSeq + 1 = seqOf (s.made ++ [s.link.nextSeq]).length
    rw [List.length_append, List.length_singleton, ← seqOf_succ, h.nextSeq]
  answers := fun f hf => List.mem_append_left _ (h.answers f hf)
  since := List.prefix_refl _
  passed := by
    obtain ⟨taken, hat, -⟩ := h.passed
    refine ⟨taken, hat, fun hcur f hf => Bool.eq_false_iff.mpr fun htakes => ?_⟩
    exact h.fresh hn (taken_sent hat hf) ((takes_seq htakes).trans (hp hcur))
  current := by
    intro c seq hcur
    obtain rfl := hp hcur
    exact ⟨List.getLast?_concat, fun f hf => h.fresh hn hf⟩

/-- Nothing is sent and no call is made, and the call that is being made stays or ends. -/
theorem moved (h : Inv s) (hmade : s'.made = s.made) (hseq : s'.link.nextSeq = s.link.nextSeq)
    (hsent : s'.sent = s.sent) (hbefore : s'.before = s.before)
    (hcur : ∀ {p}, s'.phase.current = some p → s.phase.current = some p) (hpassed : Passed s') :
    Inv s' where
  made := by rw [hmade]; exact h.made
  nextSeq := by rw [hseq, hmade]; exact h.nextSeq
  answers := by rw [hsent, hmade]; exact h.answers
  since := by rw [hbefore, hsent]; exact h.since
  passed := hpassed
  current := fun hp => (by rw [hmade, hbefore]; exact h.current (hcur hp))

/-- The reader finds no frame. -/
theorem none_left (h : Inv s) {reader : FrameReader}
    (hnext : s.link.reader.nextFrame = (none, reader)) :
    ∃ taken, codec.At s.read taken reader.buf ∧ framesIn s.read = taken ∧
      ∀ {c seq}, s.phase.current = some (c, seq) → ∀ f ∈ taken, c.takes seq f = false := by
  obtain ⟨taken, hat, hpassed⟩ := h.passed
  have hn := FrameReader.next_of_nextFrame hnext
  refine ⟨taken, hat.next_none hn, ?_, hpassed⟩
  rw [framesIn_eq, hat.waiting hn]

/-- The call ends. -/
theorem ended (h : Inv s) {reader : FrameReader} {taken : List OwnedFrame}
    (hat : codec.At s.read taken reader.buf) :
    Inv { s with link := { s.link with reader }, phase := .idle } :=
  h.moved rfl rfl rfl rfl (fun hc => (by cases hc)) ⟨taken, hat, fun hc => (by cases hc)⟩

theorem step (h : Inv s) (hG : Answers s l) (hm : Move b s l s' es)
    (hn : s'.made.length ≤ 65536) : Inv s' := by
  cases hm with
  | sends =>
      rename_i bytes
      have hsent : s.read ++ (s.incoming ++ bytes) = s.sent ++ bytes :=
        (List.append_assoc ..).symm
      refine ⟨h.made, h.nextSeq, ?_, ?_, h.passed, h.current⟩
      · intro f hf
        rw [State.sent, hsent] at hf
        exact hG f hf
      · rw [State.sent, hsent]
        exact h.since.trans (List.prefix_append ..)
  | requested =>
      have hlt : s.called.made.length ≤ 65536 := hn
      rw [State.called_made_length] at hlt
      refine h.called hlt fun hcur => ?_
      cases hcur
      rfl
  | refused hidle =>
      have hlt : s.called.made.length ≤ 65536 := hn
      rw [State.called_made_length] at hlt
      have hnone : s.phase.current = none := by
        rw [hidle]
        rfl
      exact h.called (p := s.phase) hlt fun hcur => (by rw [hnone] at hcur; cases hcur)
  | written hp =>
      rename_i c seq
      have hcur : ∀ {p}, (Phase.awaiting c seq).current = some p → s.phase.current = some p := by
        intro p hcur
        rw [hp]
        exact hcur
      obtain ⟨taken, hat, hpassed⟩ := h.passed
      exact h.moved rfl rfl rfl rfl hcur ⟨taken, hat, fun hc => hpassed (hcur hc)⟩
  | failed hp =>
      obtain ⟨taken, hat, -⟩ := h.passed
      exact h.ended hat
  | discarded hp hnext hother =>
      obtain ⟨taken, hat, hpassed⟩ := h.passed
      refine h.moved rfl rfl rfl rfl id
        ⟨_, hat.next_some (FrameReader.next_of_nextFrame hnext), fun hc g hg => ?_⟩
      rcases List.mem_append.mp hg with hg | hg
      · exact hpassed hc g hg
      · change s.phase.current = _ at hc
        rw [hp] at hc
        cases hc
        rw [List.mem_singleton.mp hg]
        exact hother
  | taken hp hnext htakes =>
      obtain ⟨taken, hat, -⟩ := h.passed
      exact h.ended (hat.next_some (FrameReader.next_of_nextFrame hnext))
  | timedOut hp hnext | readFailed hp hnext =>
      obtain ⟨taken, hat, -, -⟩ := h.none_left hnext
      exact h.ended hat
  | read hp hnext =>
      obtain ⟨taken, hat, -, hpassed⟩ := h.none_left hnext
      refine h.moved rfl rfl ?_ rfl id ⟨taken, hat.feed _, hpassed⟩
      rw [State.sent, State.sent, List.append_assoc, List.take_append_drop]

end Inv

/-- Where the calls have seqs of their own, the invariant holds. -/
def Counted (s : State) (ls : List Label) (_ : List Event) : Prop :=
  s.made.length = ls.countP Label.isCall ∧ (s.made.length ≤ 65536 → Inv s)

/-- A run of at most 65536 calls, on a device that answers calls that have been made. -/
theorem inv_of_run {b : Bodies} {ls : List Label} {s : State} {es : List Event}
    (hcalls : ls.countP Label.isCall ≤ 65536) (hdevice : (machine b).Guarded Answers .initial ls)
    (hrun : (machine b).run .initial ls = some (s, es)) : Inv s ∧ s.made.length ≤ 65536 := by
  have hstep : ∀ {s ls es l s' es'}, Counted s ls es → Answers s l →
      (machine b).step s l = some (s', es') → Counted s' (ls ++ [l]) (es ++ es') := by
    rintro s ls es l s' es' ⟨hlen, hinv⟩ hG hs
    have hm := step_moves hs
    have hadd := made_length hm
    refine ⟨?_, fun hn => (hinv (by omega)).step hG hm hn⟩
    rw [List.countP_append, ← hlen, hadd]
  have h := @Machine.run_guarded _ _ _ (machine b) Answers Counted @hstep ls .initial s [] [] es
    ⟨rfl, fun _ => inv_initial⟩ hdevice hrun
  rw [List.nil_append] at h
  obtain ⟨hlen, hinv⟩ := h
  have hn : s.made.length ≤ 65536 := hlen.trans_le hcalls
  exact ⟨hinv hn, hn⟩

/-! ## What a call returns -/

section Returns

variable {b : Bodies} {s s' : State} {c : Call} {seq : UInt16} {f : OwnedFrame}
  {reader : FrameReader}

theorem decoded_of_finish {reply : Reply} (htakes : c.takes seq f = true)
    (h : c.finish b f = .ok reply) : Decoded b f c reply := by
  cases c with
  | hello =>
      dsimp only [Call.finish] at h
      split at h
      · rename_i htyp
        split at h
        · rename_i hdecode
          cases h
          exact ⟨htyp, hdecode⟩
        · cases h
      · cases h
  | request =>
      dsimp only [Call.finish] at h
      split at h
      · rename_i htyp
        split at h
        · rename_i hdecode
          cases h
          exact ⟨htyp, hdecode⟩
        · cases h
      · split at h <;> cases h
      · cases h
  | ping =>
      cases h
      exact ⟨(of_decide_eq_true htakes).1, rfl⟩

theorem filter_passed {taken : List OwnedFrame} (h : ∀ f ∈ taken, c.takes seq f = false) :
    taken.filter (c.takes seq) = [] := by
  rw [List.filter_eq_nil_iff]
  exact fun f hf => Bool.eq_false_iff.mp (h f hf)

namespace Inv

/-- The next frame, where it is for the call, is the first that is. -/
theorem own_of_some (h : Inv s) (hcur : s.phase.current = some (c, seq))
    (hnext : s.link.reader.nextFrame = (some f, reader)) (htakes : c.takes seq f = true) :
    ∃ rest, own c seq s = f :: rest := by
  obtain ⟨taken, hat, hpassed⟩ := h.passed
  rw [own, framesIn_eq, hat.frames, codec.drain_of_some (FrameReader.next_of_nextFrame hnext),
    List.filter_append, filter_passed (hpassed hcur), List.nil_append]
  exact ⟨_, List.filter_cons_of_pos htakes⟩

/-- Where there is no next frame, none is for the call. -/
theorem own_of_none (h : Inv s) (hcur : s.phase.current = some (c, seq))
    (hnext : s.link.reader.nextFrame = (none, reader)) : own c seq s = [] := by
  obtain ⟨taken, -, hread, hpassed⟩ := h.none_left hnext
  rw [own, hread]
  exact filter_passed (hpassed hcur)

/-- A frame for the call has been sent after the call was made. -/
theorem sent_since (h : Inv s) (hcur : s.phase.current = some (c, seq))
    (hnext : s.link.reader.nextFrame = (some f, reader)) (htakes : c.takes seq f = true) :
    ∃ since, framesIn s.sent = framesIn s.before ++ since ∧ f ∈ since := by
  obtain ⟨rest, hown⟩ := h.own_of_some hcur hnext htakes
  have hread : f ∈ framesIn s.read := by
    have hmem : f ∈ own c seq s := by
      rw [hown]
      exact List.mem_cons_self
    exact (List.mem_filter.mp hmem).1
  obtain ⟨more, hmore⟩ := h.since
  have hsent : f ∈ framesIn s.sent := by
    rw [State.sent, framesIn_append]
    exact List.mem_append_left _ hread
  rw [← hmore, framesIn_append] at hsent ⊢
  refine ⟨_, rfl, (List.mem_append.mp hsent).resolve_left fun hbefore => ?_⟩
  exact (h.current hcur).2 f hbefore (takes_seq htakes)

theorem turned (h : Inv s) (hp : s.phase = .awaiting c seq) {elapsed : Bool}
    {read : Except String Nat} {es : List Event} (hm : Move b s (.turn elapsed read) s' es) :
    Turned b s c seq elapsed read s' es := by
  have hcur := current_of_awaiting hp
  cases hm with
  | discarded hp' hnext hother =>
      cases hp.symm.trans hp'
      exact .discarded hnext hother (codec.next_length (FrameReader.next_of_nextFrame hnext))
  | taken hp' hnext htakes =>
      cases hp.symm.trans hp'
      obtain ⟨rest, hown⟩ := h.own_of_some hcur hnext htakes
      refine .answered ?_ rfl
      rw [hown]
      rfl
  | timedOut hp' hnext | readFailed hp' hnext =>
      cases hp.symm.trans hp'
      refine .answered ?_ rfl
      rw [h.own_of_none hcur hnext]
      rfl
  | read hp' hnext =>
      cases hp.symm.trans hp'
      refine .waiting rfl ?_ rfl rfl ?_
      · rw [h.own_of_none hcur hnext]
        rfl
      · rw [State.sent, State.sent, List.append_assoc, List.take_append_drop]

end Inv

end Returns

/-- **No stale reply.**  On a device that answers calls that have been made, in a run of at
most 65536 calls, no two calls have the same seq.  What a call returns when it succeeds is
decoded from a frame of its type that has its seq and was sent after it was made; and in its
loop a frame that is not for it is thrown away with nothing else different, so that what the
call returns depends on its own frames alone. -/
theorem no_stale_reply {b : Bodies} {ls : List Label} {s : State} {es : List Event}
    (hcalls : ls.countP Label.isCall ≤ 65536) (hdevice : (machine b).Guarded Answers .initial ls)
    (hrun : (machine b).run .initial ls = some (s, es)) :
    s.made.Nodup ∧
    (∀ {l s' es' c seq reply}, (machine b).step s l = some (s', es') →
      .returned c seq (.ok reply) ∈ es' →
      s.made.getLast? = some seq ∧
        ∃ f since, framesIn s.sent = framesIn s.before ++ since ∧ f ∈ since ∧ f.seq = seq ∧
          Decoded b f c reply) ∧
    ∀ {c seq}, s.phase = .awaiting c seq →
      s.made.getLast? = some seq ∧ (∀ f ∈ framesIn s.before, f.seq ≠ seq) ∧
        ∀ {elapsed read s' es'}, (machine b).step s (.turn elapsed read) = some (s', es') →
          Turned b s c seq elapsed read s' es' := by
  obtain ⟨hinv, hn⟩ := inv_of_run hcalls hdevice hrun
  refine ⟨hinv.nodup hn, ?_, ?_⟩
  · intro l s' es' c seq reply hs hmem
    generalize hr : Except.ok reply = r at hmem
    cases step_moves hs with
    | taken hp hnext htakes =>
        obtain ⟨rfl, rfl, rfl⟩ := Event.returned.inj (List.mem_singleton.mp hmem)
        have hcur := current_of_awaiting hp
        obtain ⟨since, hsince, hf⟩ := hinv.sent_since hcur hnext htakes
        exact ⟨(hinv.current hcur).1, _, since, hsince, hf, takes_seq htakes,
          decoded_of_finish htakes hr.symm⟩
    | sends | written | discarded | read => cases hmem
    | requested => cases List.mem_singleton.mp hmem
    | refused | failed | timedOut | readFailed =>
        obtain ⟨rfl, rfl, rfl⟩ := Event.returned.inj (List.mem_singleton.mp hmem)
        cases hr
  · intro c seq hp
    obtain ⟨hlast, hbefore⟩ := hinv.current (current_of_awaiting hp)
    exact ⟨hlast, hbefore, fun hs => hinv.turned hp (step_moves hs)⟩

/-! ## An answer that comes late -/

/-- Enough to decode a device that has no instruments. -/
def emptyCaps : Bodies where
  value := fun _ => []
  caps := fun p => if p = capsBody 1 [] then .ok ⟨1, []⟩ else .error "unexpected type"
  resp := fun _ => .error "unexpected type"
  agentError := fun _ => .error "unexpected type"

def latePong : Frame := { typ := .pong, flags := 0, seq := 1, payload := [0x41] }

def capsReply : Frame := { typ := .caps, flags := 0, seq := 2, payload := capsBody 1 [] }

/-- A ping times out, and the PONG comes in two parts while `hello` waits. -/
def late : List Label :=
  [.call (.ping [0x41]), .wrote (.ok ()), .turn true (.ok 0), .call .hello,
    .sends (latePong.wire.take 5), .wrote (.ok ()), .turn false (.ok 512),
    .sends (latePong.wire.drop 5 ++ capsReply.wire), .turn false (.ok 512), .turn false (.ok 0)]

set_option maxRecDepth 10000 in
/-- The PONG is thrown away, and `hello` returns its own CAPS. -/
theorem no_stale_reply_late :
    ∃ s es s' f since, (machine emptyCaps).run .initial late = some (s, es) ∧
      (machine emptyCaps).step s (.turn false (.ok 0))
        = some (s', [.returned .hello 2 (.ok (.caps ⟨1, []⟩))]) ∧
      framesIn s.sent = framesIn s.before ++ since ∧ f ∈ since ∧ f.seq = 2 ∧
      Decoded emptyCaps f .hello (.caps ⟨1, []⟩) := by
  have hframes : (machine emptyCaps).Guarded (SendsFrames [latePong, capsReply]) .initial late := by
    decide +kernel
  obtain ⟨s, es, s', hrun, hstep⟩ : ∃ s es s',
      (machine emptyCaps).run .initial late = some (s, es) ∧
      (machine emptyCaps).step s (.turn false (.ok 0))
        = some (s', [.returned .hello 2 (.ok (.caps ⟨1, []⟩))]) :=
    ⟨_, _, _, rfl, rfl⟩
  obtain ⟨-, hreturned, -⟩ :=
    no_stale_reply (by decide) (Machine.guarded_mono answers_of_frames hframes) hrun
  obtain ⟨-, f, since, hsince, hf, hseq, hdecoded⟩ := hreturned hstep (List.mem_singleton_self _)
  exact ⟨s, es, s', f, since, hrun, hstep, hsince, hf, hseq, hdecoded⟩

end FlipLink.DeviceLink
