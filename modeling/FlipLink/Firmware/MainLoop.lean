/-
# `FlipLink.Firmware.MainLoop` — the framing of the main loop

The part of `main` between a receive and the handlers: bytes are appended to a
heap accumulator, whole frames are decoded off its front and dispatched, PING to
the echo and everything else to `handle_frame`.  It is a second copy of the
host's `FrameReader`, with one rule more: an accumulator that has grown past
`MAX_FRAME` is thrown away, before anything in it is looked at.

`MAX_FRAME` is documented as the largest accepted frame, but the rule looks at
the whole accumulator, which may hold the end of one frame and the beginning of
the next.  `dispatches_iff` says when that does no harm: exactly when no piece,
put behind the unfinished frame it continues, comes to more than `MAX_FRAME`
bytes (`Fits`).  `dispatches_lost` is a run where it does.
-/
import FlipLink.Core.Transport
import Mathlib.Algebra.Order.BigOperators.Group.List
import Mathlib.Algebra.Order.Ring.Nat

namespace FlipLink.MainLoop

open Lib

def rxStreamCap : Nat := 1024
def chunkSize : Nat := 64
/-- ~5 min of idle 20ms receive timeouts. -/
def maxIdle : Nat := 15000
/-- Largest accepted inbound frame (header+payload+crc). -/
def maxFrame : Nat := 16 * 1024

/-- Where a decoded frame goes. -/
inductive Dispatch where
  | echo (seq : UInt16) (payload : List UInt8)
  | handleFrame (typ : MsgType) (seq : UInt16) (payload : List UInt8)
  deriving DecidableEq, Repr

/-- PING is handled inline, the rest by `handle_frame`. -/
def dispatch (f : Frame) : Dispatch :=
  match f.typ with
  | .ping => .echo f.seq f.payload
  | typ => .handleFrame typ f.seq f.payload

/-- At most `k` turns of the inner loop: what is dispatched, and the accumulator
it leaves. -/
def drainN : Nat → List UInt8 → List Dispatch × List UInt8
  | 0, acc => ([], acc)
  | k + 1, acc =>
      match decode acc with
      | .frame f used =>
          (dispatch f :: (drainN k (acc.drop used)).1, (drainN k (acc.drop used)).2)
      | .needMore => ([], acc)
      | .resync => if acc.isEmpty then ([], acc) else drainN k (acc.drop 1)

/-- Drain whole frames; every turn but the last drops a byte. -/
def drain (acc : List UInt8) : List Dispatch × List UInt8 := drainN (acc.length + 1) acc

/-- The locals that a turn of the main loop reads and writes. -/
structure Loop where
  acc : List UInt8
  idle : Nat
  deriving DecidableEq, Repr

def Loop.new : Loop := { acc := [], idle := 0 }

/-- What a turn of the main loop finds. -/
structure Turn where
  /-- The bytes received, none if the receive timed out. -/
  got : List UInt8
  /-- `RX_OVERFLOWED` was set. -/
  overflowed : Bool
  /-- A capture is active. -/
  capturing : Bool
  deriving DecidableEq, Repr

/-- One turn of the main loop: what it dispatches, and the locals behind it. -/
def turn (s : Loop) (t : Turn) : List Dispatch × Loop :=
  if t.overflowed then ([], { acc := [], idle := 0 })
  else if t.got.length = 0 then
    ([], if t.capturing then s else { s with idle := s.idle + 1 })
  else
    let acc := s.acc ++ t.got
    if acc.length > maxFrame then ([], { acc := [], idle := 0 })
    else ((drain acc).1, { acc := (drain acc).2, idle := 0 })

/-- The main loop over a list of turns; it ends by itself after `MAX_IDLE` idle
ones. -/
def run : Loop → List Turn → List Dispatch × Loop
  | s, [] => ([], s)
  | s, t :: ts =>
      if s.idle < maxIdle then ((turn s t).1 ++ (run (turn s t).2 ts).1, (run (turn s t).2 ts).2)
      else ([], s)

/-! ## The inner loop is the host's -/

theorem drainN_eq : ∀ {k : Nat} {acc : List UInt8}, acc.length < k →
    drainN k acc = ((codec.drain acc).1.map dispatch, (codec.drain acc).2)
  | 0, _, h => absurd h (Nat.not_lt_zero _)
  | k + 1, acc, h => by
      cases hd : decode acc with
      | frame f used =>
          have hpos := codec.used_pos hd
          have hlt : (acc.drop used).length < k := by
            have := codec.used_le hd
            rw [List.length_drop]
            omega
          rw [codec.drain_of_some (codec.next_of_frame hd), drainN, hd]
          dsimp only
          rw [drainN_eq hlt]
          rfl
      | needMore =>
          rw [codec.drain_of_none (codec.next_of_needMore hd), drainN, hd]
          rfl
      | resync =>
          cases acc with
          | nil => exact nomatch hd
          | cons b bs =>
              rw [drainN, hd]
              show drainN k bs = _
              rw [drainN_eq (Nat.lt_of_succ_lt_succ h)]
              -- the host's reader drops the same byte
              have hnext := codec.next_of_resync hd
              cases hn : codec.next bs with
              | mk o r =>
                cases o with
                | none => rw [codec.drain_of_none hn, codec.drain_of_none (hnext.trans hn)]
                | some f => rw [codec.drain_of_some hn, codec.drain_of_some (hnext.trans hn)]

theorem drain_eq (acc : List UInt8) :
    drain acc = ((codec.drain acc).1.map dispatch, (codec.drain acc).2) :=
  drainN_eq (Nat.lt_succ_self _)

/-! ## Frames back to back -/

/-- The bytes of a frame on the wire. -/
def size (f : Frame) : Nat := f.payload.length + 13

/-- The frames' bytes, back to back. -/
def wires (fs : List Frame) : List UInt8 := fs.flatMap Frame.wire

/-- The frames complete in the first `n` bytes. -/
def completed : List Frame → Nat → List Frame
  | [], _ => []
  | f :: fs, n => if size f ≤ n then f :: completed fs (n - size f) else []

/-- The bytes of the unfinished frame in the first `n` bytes. -/
def pending : List Frame → Nat → Nat
  | [], n => n
  | f :: fs, n => if size f ≤ n then pending fs (n - size f) else n

/-- With `n` bytes already in, no piece grows the accumulator past `MAX_FRAME`:
the unfinished frame and the piece that continues it fit. -/
def Fits (fs : List Frame) : Nat → List (List UInt8) → Prop
  | _, [] => True
  | n, p :: ps => pending fs n + p.length ≤ maxFrame ∧ Fits fs (n + p.length) ps

theorem length_frame_wire (f : Frame) : f.wire.length = size f := length_wire _ _ _ _

/-- A frame that is accepted is within the codec's limit. -/
theorem payload_le_of_size {f : Frame} (hf : size f ≤ maxFrame) : f.payload.length ≤ 0xFFFF := by
  simp only [size, maxFrame] at hf
  omega

/-- A drain of the first bytes of some frames yields the complete ones and
leaves the unfinished one. -/
theorem drain_take_wires : ∀ {fs : List Frame}, (∀ f ∈ fs, size f ≤ maxFrame) →
    ∀ {n : Nat}, n ≤ (wires fs).length →
    (codec.drain ((wires fs).take n)).1 = completed fs n ∧
      (codec.drain ((wires fs).take n)).2.length = pending fs n
  | [], _, n, hn => by
      obtain rfl : n = 0 := Nat.le_zero.mp hn
      exact ⟨rfl, rfl⟩
  | f :: fs, hfs, n, hn => by
      obtain ⟨hf, hfs⟩ := List.forall_mem_cons.mp hfs
      have hmax := payload_le_of_size hf
      have hw : wires (f :: fs) = f.wire ++ wires fs := List.flatMap_cons
      rw [hw, List.length_append, length_frame_wire] at hn
      by_cases hle : size f ≤ n
      · have htake : (wires (f :: fs)).take n = f.wire ++ (wires fs).take (n - size f) := by
          rw [hw, List.take_append, length_frame_wire,
            List.take_of_length_le (by rw [length_frame_wire]; exact hle)]
        obtain ⟨h₁, h₂⟩ := drain_take_wires hfs (n := n - size f) (by omega)
        rw [htake, codec.drain_of_some (next_wire hmax _), completed, pending, if_pos hle,
          if_pos hle]
        exact ⟨congrArg (f :: ·) h₁, h₂⟩
      · have htake : (wires (f :: fs)).take n = f.wire.take n := by
          rw [hw, List.take_append_of_le_length (by rw [length_frame_wire]; omega)]
        rw [htake, codec.drain_of_none (next_take_wire hmax (Nat.not_le.mp hle)), completed,
          pending, if_neg hle, if_neg hle]
        refine ⟨rfl, ?_⟩
        rw [List.length_take, length_frame_wire]
        omega

theorem drain_wires {fs : List Frame} (hfs : ∀ f ∈ fs, size f ≤ maxFrame) :
    (codec.drain (wires fs)).1 = fs := by
  have h := codec_drain_wires (fun f hf => payload_le_of_size (hfs f hf)) []
  rw [List.append_nil] at h
  exact h.trans (List.append_nil fs)

/-- A turn that receives a whole frame dispatches it. -/
theorem turn_wire {f : Frame} (hf : size f ≤ maxFrame) (capturing : Bool) :
    turn .new { got := f.wire, overflowed := false, capturing } = ([dispatch f], .new) := by
  have hlen := length_frame_wire f
  have hdrain : codec.drain f.wire = ([f], []) := by
    have := codec.drain_of_some (next_wire (payload_le_of_size hf) [])
    rwa [List.append_nil] at this
  have hne : ¬ f.wire.length = 0 := by
    rw [hlen, size]
    omega
  have hle : ¬ ([] ++ f.wire).length > maxFrame := by
    rw [List.nil_append, hlen]
    omega
  unfold turn
  dsimp only [Loop.new]
  rw [if_neg Bool.false_ne_true, if_neg hne, if_neg hle, List.nil_append, drain_eq, hdrain]
  rfl

/-! ## What a run dispatches -/

/-- A turn that receives a piece of 1 to 64 bytes, and nothing was lost. -/
structure Piece (t : Turn) : Prop where
  overflowed : t.overflowed = false
  pos : 1 ≤ t.got.length
  le : t.got.length ≤ chunkSize

/-- The bytes of a dispatched frame. -/
def weight : Dispatch → Nat
  | .echo _ payload => payload.length + 13
  | .handleFrame _ _ payload => payload.length + 13

theorem weight_dispatch (f : Frame) : weight (dispatch f) = size f := by
  unfold dispatch
  split <;> rfl

theorem weight_map_dispatch : ∀ fs : List Frame,
    ((fs.map dispatch).map weight).sum = (fs.map size).sum
  | [] => rfl
  | f :: fs => by
      rw [List.map_cons, List.map_cons, List.sum_cons, weight_dispatch, weight_map_dispatch fs,
        List.map_cons, List.sum_cons]

theorem sum_size : ∀ fs : List Frame, (fs.map size).sum = (wires fs).length
  | [] => rfl
  | f :: fs => by
      have hw : wires (f :: fs) = f.wire ++ wires fs := List.flatMap_cons
      rw [hw, List.length_append, List.map_cons, List.sum_cons, sum_size fs, length_frame_wire]

theorem turn_kept {s : Loop} {t : Turn} (ht : Piece t)
    (h : s.acc.length + t.got.length ≤ maxFrame) :
    turn s t = ((codec.drain (s.acc ++ t.got)).1.map dispatch,
      { acc := (codec.drain (s.acc ++ t.got)).2, idle := 0 }) := by
  have hpos := ht.pos
  rw [turn, ht.overflowed, if_neg Bool.false_ne_true, if_neg (by omega)]
  dsimp only
  rw [if_neg (by rw [List.length_append]; omega), drain_eq]

theorem turn_cleared {s : Loop} {t : Turn} (ht : Piece t)
    (h : maxFrame < s.acc.length + t.got.length) : turn s t = ([], { acc := [], idle := 0 }) := by
  have hpos := ht.pos
  rw [turn, ht.overflowed, if_neg Bool.false_ne_true, if_neg (by omega)]
  dsimp only
  rw [if_pos (by rw [List.length_append]; omega)]

/-- The frames of a drain weigh no more than its bytes. -/
theorem weight_drain (acc : List UInt8) :
    (((codec.drain acc).1.map dispatch).map weight).sum + (codec.drain acc).2.length
      ≤ acc.length := by
  rw [weight_map_dispatch]
  exact codec.drain_weight (fun h => Nat.le_of_eq (decode_payload_le h).2.1.symm) acc

/-- Nothing is dispatched that did not arrive. -/
theorem run_weight : ∀ {ts : List Turn} (s : Loop), (∀ t ∈ ts, Piece t) →
    ((run s ts).1.map weight).sum ≤ s.acc.length + (ts.map Turn.got).flatten.length
  | [], _, _ => Nat.zero_le _
  | t :: ts, s, hts => by
      obtain ⟨ht, hts⟩ := List.forall_mem_cons.mp hts
      rw [run, List.map_cons, List.flatten_cons, List.length_append]
      by_cases hidle : s.idle < maxIdle
      · rw [if_pos hidle, List.map_append, List.sum_append]
        have ih := run_weight (turn s t).2 hts
        by_cases hle : s.acc.length + t.got.length ≤ maxFrame
        · have hd := weight_drain (s.acc ++ t.got)
          rw [List.length_append] at hd
          rw [turn_kept ht hle] at ih ⊢
          dsimp only at ih ⊢
          omega
        · rw [turn_cleared ht (Nat.not_le.mp hle)] at ih ⊢
          rw [List.length_nil] at ih
          rw [List.map_nil, List.sum_nil]
          omega
      · rw [if_neg hidle, List.map_nil, List.sum_nil]
        exact Nat.zero_le _

/-- Nothing larger than `MAX_FRAME` is dispatched. -/
theorem weight_le_maxFrame : ∀ {ts : List Turn} (s : Loop), (∀ t ∈ ts, Piece t) →
    ∀ x ∈ (run s ts).1, weight x ≤ maxFrame
  | [], _, _, _, hx => nomatch hx
  | t :: ts, s, hts, x, hx => by
      obtain ⟨ht, hts⟩ := List.forall_mem_cons.mp hts
      rw [run] at hx
      split_ifs at hx
      · rcases List.mem_append.mp hx with hx | hx
        · by_cases hle : s.acc.length + t.got.length ≤ maxFrame
          · rw [turn_kept ht hle] at hx
            have hsum : weight x ≤ (((codec.drain (s.acc ++ t.got)).1.map dispatch).map weight).sum :=
              List.le_sum_of_mem (List.mem_map_of_mem hx)
            have hd := weight_drain (s.acc ++ t.got)
            rw [List.length_append] at hd
            omega
          · rw [turn_cleared ht (Nat.not_le.mp hle)] at hx
            exact nomatch hx
        · exact weight_le_maxFrame _ hts x hx
      · exact nomatch hx

/-- A loop that waits does what a new one does, however long it has waited. -/
theorem run_waiting {s : Loop} {ts : List Turn} (hacc : s.acc = []) (hidle : s.idle < maxIdle)
    (hts : ∀ t ∈ ts, Piece t) (hne : ts ≠ []) : run s ts = run .new ts := by
  cases ts with
  | nil => exact absurd rfl hne
  | cons t ts =>
      have ht := (List.forall_mem_cons.mp hts).1
      have hturn : turn s t = turn .new t := by
        have hfit : ([] : List UInt8).length + t.got.length ≤ maxFrame := by
          have := ht.le
          simp only [chunkSize, maxFrame, List.length_nil] at this ⊢
          omega
        rw [turn_kept ht (s := s) (by rw [hacc]; exact hfit), turn_kept ht (s := .new) hfit, hacc]
        rfl
      rw [run, run, if_pos hidle, if_pos (by decide), hturn]

/-- The state in which the first `n` bytes of the frames are in and nothing has
been thrown away. -/
structure Good (fs : List Frame) (n : Nat) (s : Loop) : Prop where
  acc_eq : s.acc = (codec.drain ((wires fs).take n)).2
  idle_eq : s.idle = 0

theorem good_new (fs : List Frame) : Good fs 0 .new := ⟨rfl, rfl⟩

/-- A piece that fits takes a good state to a good state, and dispatches the
frames it completes. -/
theorem turn_good {fs : List Frame} {n : Nat} {s : Loop} (h : Good fs n s) {t : Turn}
    (ht : Piece t) (hle : s.acc.length + t.got.length ≤ maxFrame)
    (hnext : (wires fs).take (n + t.got.length) = (wires fs).take n ++ t.got) :
    Good fs (n + t.got.length) (turn s t).2 ∧
    (codec.drain ((wires fs).take n)).1.map dispatch ++ (turn s t).1
      = (codec.drain ((wires fs).take (n + t.got.length))).1.map dispatch := by
  have happ := codec.drain_append ((wires fs).take n) t.got
  rw [← hnext, ← h.acc_eq] at happ
  rw [turn_kept ht hle, happ, List.map_append]
  exact ⟨⟨by rw [happ], rfl⟩, rfl⟩

section Run

variable {fs : List Frame} (hfs : ∀ f ∈ fs, size f ≤ maxFrame)
include hfs

theorem acc_length {n : Nat} (hn : n ≤ (wires fs).length) {s : Loop} (h : Good fs n s) :
    s.acc.length = pending fs n := by
  rw [h.acc_eq]
  exact (drain_take_wires hfs hn).2

/-- If every piece fits, the run dispatches the frames not yet complete. -/
theorem run_fits : ∀ {ts : List Turn} {n : Nat} {s : Loop}, Good fs n s → (∀ t ∈ ts, Piece t) →
    n ≤ (wires fs).length → (wires fs).drop n = (ts.map Turn.got).flatten →
    Fits fs n (ts.map Turn.got) →
    (codec.drain ((wires fs).take n)).1.map dispatch ++ (run s ts).1 = fs.map dispatch
  | [], n, s, _, _, hn, hrest, _ => by
      have hlen := congrArg List.length hrest
      rw [List.length_drop] at hlen
      rw [List.take_of_length_le (Nat.le_of_sub_eq_zero hlen), drain_wires hfs]
      exact List.append_nil _
  | t :: ts, n, s, h, hts, hn, hrest, hfit => by
      obtain ⟨ht, hts⟩ := List.forall_mem_cons.mp hts
      obtain ⟨hfit, hfits⟩ := hfit
      rw [List.map_cons, List.flatten_cons] at hrest
      have hlen := congrArg List.length hrest
      rw [List.length_drop, List.length_append] at hlen
      have hnext : (wires fs).take (n + t.got.length) = (wires fs).take n ++ t.got := by
        rw [List.take_add, hrest, List.take_left]
      have hdrop : (wires fs).drop (n + t.got.length) = (ts.map Turn.got).flatten := by
        rw [← List.drop_drop, hrest, List.drop_left]
      obtain ⟨hgood, hdisp⟩ := turn_good h ht (by rw [acc_length hfs hn h]; exact hfit) hnext
      rw [run, if_pos (by rw [h.idle_eq]; decide), ← List.append_assoc, hdisp]
      exact run_fits hgood hts (by omega) hdrop hfits

/-- If some piece does not fit, less is dispatched than arrives. -/
theorem run_lost : ∀ {ts : List Turn} {n : Nat} {s : Loop}, Good fs n s → (∀ t ∈ ts, Piece t) →
    n ≤ (wires fs).length → (wires fs).drop n = (ts.map Turn.got).flatten →
    ¬ Fits fs n (ts.map Turn.got) →
    ((run s ts).1.map weight).sum < s.acc.length + (ts.map Turn.got).flatten.length
  | [], _, _, _, _, _, _, hfit => absurd trivial hfit
  | t :: ts, n, s, h, hts, hn, hrest, hfit => by
      obtain ⟨ht, hts⟩ := List.forall_mem_cons.mp hts
      rw [List.map_cons, List.flatten_cons] at hrest
      have hlen := congrArg List.length hrest
      rw [List.length_drop, List.length_append] at hlen
      have hnext : (wires fs).take (n + t.got.length) = (wires fs).take n ++ t.got := by
        rw [List.take_add, hrest, List.take_left]
      have hdrop : (wires fs).drop (n + t.got.length) = (ts.map Turn.got).flatten := by
        rw [← List.drop_drop, hrest, List.drop_left]
      have hpend := acc_length hfs hn h
      rw [run, if_pos (by rw [h.idle_eq]; decide), List.map_append, List.sum_append, List.map_cons,
        List.flatten_cons, List.length_append]
      by_cases hle : s.acc.length + t.got.length ≤ maxFrame
      · -- the loss is further on
        obtain ⟨hgood, -⟩ := turn_good h ht hle hnext
        have ih := run_lost hgood hts (by omega) hdrop
          (fun hf => hfit ⟨by rw [← hpend]; exact hle, hf⟩)
        have hd := weight_drain (s.acc ++ t.got)
        rw [List.length_append] at hd
        rw [turn_kept ht hle] at ih ⊢
        dsimp only at ih ⊢
        omega
      · -- the accumulator is thrown away
        have ih := run_weight (turn s t).2 hts
        have hpos := ht.pos
        rw [turn_cleared ht (Nat.not_le.mp hle)] at ih ⊢
        rw [List.length_nil] at ih
        rw [List.map_nil, List.sum_nil]
        omega

end Run

/-- **When the main loop accepts what it documents.**  Frames of at most
`MAX_FRAME` bytes each, back to back, in pieces of 1 to 64 bytes: the loop
dispatches exactly these frames, which are those the host's reader yields, if
and only if no piece, put behind the unfinished frame it continues, comes to
more than `MAX_FRAME` bytes. -/
theorem dispatches_iff {fs : List Frame} (hfs : ∀ f ∈ fs, size f ≤ maxFrame) {ts : List Turn}
    (hts : ∀ t ∈ ts, Piece t) (hw : (ts.map Turn.got).flatten = wires fs) :
    ((run .new ts).1 = fs.map dispatch ∧
      (FrameReader.new.feed (ts.map Turn.got).flatten).drain.1 = fs)
      ↔ Fits fs 0 (ts.map Turn.got) := by
  have hhost : (FrameReader.new.feed (ts.map Turn.got).flatten).drain.1 = fs := by
    rw [FrameReader.drain_eq, hw]
    exact drain_wires hfs
  constructor
  · rintro ⟨hrun, -⟩
    by_contra hfit
    have hlost := run_lost hfs (good_new fs) hts (Nat.zero_le _) hw.symm hfit
    rw [hrun, weight_map_dispatch, sum_size, hw] at hlost
    exact absurd hlost (by simp [Loop.new])
  · intro hfit
    exact ⟨run_fits hfs (good_new fs) hts (Nat.zero_le _) hw.symm hfit, hhost⟩

/-- Two small frames, the second beginning in the piece that ends the first. -/
theorem dispatches_iff_pair :
    let ping : Frame := { typ := .ping, flags := 0, seq := 1, payload := [1, 2, 3] }
    let hello : Frame := { typ := .hello, flags := 0, seq := 2, payload := [] }
    let pieces := [(wires [ping, hello]).take 20, (wires [ping, hello]).drop 20]
    (run .new (pieces.map fun got => { got, overflowed := false, capturing := false })).1
      = [.echo 1 [1, 2, 3], .handleFrame .hello 2 []] := by
  intro ping hello pieces
  let turns : List Turn := pieces.map fun got => { got, overflowed := false, capturing := false }
  have hts : ∀ t ∈ turns, Piece t :=
    List.forall_mem_cons.mpr ⟨⟨rfl, by decide, by decide⟩,
      List.forall_mem_cons.mpr ⟨⟨rfl, by decide, by decide⟩, nofun⟩⟩
  have hw : (turns.map Turn.got).flatten = wires [ping, hello] := by
    show (wires [ping, hello]).take 20 ++ ((wires [ping, hello]).drop 20 ++ []) = _
    rw [List.append_nil, List.take_append_drop]
  exact ((dispatches_iff (by decide) hts hw).mpr ⟨by decide, by decide, trivial⟩).1

/-! ## A frame that is documented as accepted and lost -/

/-- The last of some pieces fits only if it fits behind all the others. -/
theorem fits_last {fs : List Frame} {q : List UInt8} : ∀ {ps : List (List UInt8)} {n : Nat},
    Fits fs n (ps ++ [q]) → pending fs (n + ps.flatten.length) + q.length ≤ maxFrame
  | [], _, h => h.1
  | p :: ps, n, h => by
      have ih := fits_last h.2
      rwa [List.flatten_cons, List.length_append, ← Nat.add_assoc]

/-- A request of exactly `MAX_FRAME` bytes. -/
def largest : Frame :=
  { typ := .req, flags := 0, seq := 1, payload := List.replicate 16371 0 }

def smallPing : Frame := { typ := .ping, flags := 0, seq := 2, payload := [] }

/-- Single bytes up to four bytes before the end of the request, then the last
four and the PING in one piece of 17. -/
def lostTurns : List Turn :=
  (((wires [largest, smallPing]).take 16380).map (fun b => [b]) ++
    [(wires [largest, smallPing]).drop 16380]).map
      fun got => { got, overflowed := false, capturing := false }

theorem size_largest : size largest = 16384 := by
  have hlen : largest.payload.length = 16371 := List.length_replicate
  rw [size, hlen]

theorem length_wires_lost : (wires [largest, smallPing]).length = 16397 := by
  rw [← sum_size, List.map_cons, List.sum_cons, size_largest]
  rfl

theorem size_lost_le : ∀ f ∈ [largest, smallPing], size f ≤ maxFrame :=
  List.forall_mem_cons.mpr ⟨by rw [size_largest]; decide,
    List.forall_mem_cons.mpr ⟨by decide, nofun⟩⟩

theorem length_last : ((wires [largest, smallPing]).drop 16380).length = 17 := by
  rw [List.length_drop, length_wires_lost]

theorem lostTurns_got : lostTurns.map Turn.got =
    ((wires [largest, smallPing]).take 16380).map (fun b => [b]) ++
      [(wires [largest, smallPing]).drop 16380] := by
  rw [lostTurns, List.map_map]
  exact List.map_id _

theorem flatten_singles (l : List UInt8) : (l.map fun b => [b]).flatten = l :=
  List.flatMap_singleton' l

theorem lostTurns_flatten : (lostTurns.map Turn.got).flatten = wires [largest, smallPing] := by
  rw [lostTurns_got, List.flatten_append, flatten_singles, List.flatten_singleton,
    List.take_append_drop]

theorem lostTurns_piece {t : Turn} (ht : t ∈ lostTurns) : Piece t := by
  obtain ⟨p, hp, rfl⟩ := List.mem_map.mp ht
  rcases List.mem_append.mp hp with hp | hp
  · obtain ⟨b, -, rfl⟩ := List.mem_map.mp hp
    exact ⟨rfl, Nat.le_refl 1, show 1 ≤ 64 by decide⟩
  · have hlen : p.length = 17 := (congrArg List.length (List.mem_singleton.mp hp)).trans length_last
    exact ⟨rfl, show 1 ≤ p.length by omega, show p.length ≤ 64 by omega⟩

theorem lostTurns_not_fits : ¬ Fits [largest, smallPing] 0 (lostTurns.map Turn.got) := by
  intro h
  rw [lostTurns_got] at h
  have hle := fits_last h
  rw [flatten_singles, List.length_take, length_wires_lost, length_last, pending, size_largest]
    at hle
  exact absurd hle (by decide)

/-- The loop does not dispatch the two frames, although neither is larger than
`MAX_FRAME`. -/
theorem dispatches_lost :
    (∀ f ∈ [largest, smallPing], size f ≤ maxFrame) ∧
    (∀ t ∈ lostTurns, Piece t) ∧
    (lostTurns.map Turn.got).flatten = wires [largest, smallPing] ∧
    (run .new lostTurns).1 ≠ [largest, smallPing].map dispatch := by
  refine ⟨size_lost_le, fun t => lostTurns_piece, lostTurns_flatten, ?_⟩
  intro hrun
  have hlost := run_lost size_lost_le (good_new _) (fun t => lostTurns_piece) (Nat.zero_le _)
    lostTurns_flatten.symm lostTurns_not_fits
  have hnew : Loop.new.acc.length = 0 := rfl
  rw [hrun, weight_map_dispatch, sum_size, lostTurns_flatten, hnew, Nat.zero_add] at hlost
  exact Nat.lt_irrefl _ hlost

end FlipLink.MainLoop
