/-
# `FlipLink.Core.Resync` — recovery after line noise

A reader that finds garbage drops one byte and looks again, but what looks like the
header of a frame makes it wait for as many bytes as the header declares.  The wait
ends with a dropped byte and never takes the frames behind it along: a false header
is not a frame however much follows it, and no header asks for more than the 65548
bytes of the largest frame (`decode_ne_needMore`).  So the frames behind the garbage
are the first that come out, as soon as that many bytes have followed it, or at once
when there is no false header in it (`resync_loses_no_frame`).
-/
import FlipLink.Core.Transport

namespace FlipLink

open Lib

/-- No header makes `decode` wait for more than the largest frame. -/
theorem decode_ne_needMore {buf : List UInt8} (h : 65548 ≤ buf.length) :
    decode buf ≠ .needMore := by
  intro hd
  have hshort : ¬ buf.length < 2 := by omega
  have hheader : ¬ buf.length < headerSize := by
    simp only [headerSize]
    omega
  rw [decode, if_neg hshort] at hd
  split_ifs at hd with hmagic hlength hbody
  · -- the length field passed its test
    have hle := Nat.not_lt.mp (mt UInt32.lt_iff_toNat_lt.mpr hlength)
    have hmax : maxPayload.toNat = 0xFFFF := rfl
    simp only [frameSize, headerSize, crcSize] at hbody
    omega
  · unfold decodeWhole at hd
    dsimp only at hd
    split_ifs at hd
    split at hd
    · cases hd
    · cases hd

/-- Where the magic is not, there is a byte to drop. -/
theorem decode_of_no_magic {a b : UInt8} {rest : List UInt8} (h : ¬(a = 0xA6 ∧ b = 0xF1)) :
    decode (a :: b :: rest) = .resync := by
  refine decode_badMagic (Nat.le_add_left 2 _) fun hm => h ?_
  have hbytes : [a, b] = le16 frameMagic := by
    rw [← hm]
    exact (le16_ofLe16 rfl).symm
  exact ⟨List.cons.inj hbytes |>.1, List.cons.inj (List.cons.inj hbytes).2 |>.1⟩

/-! ## Garbage before frames -/

/-- No frame begins in the first `n` bytes. -/
def NoFrameIn (stream : List UInt8) (n : Nat) : Prop :=
  ∀ i < n, ∀ f used, decode (stream.drop i) ≠ .frame f used

/-- What the reader meets in garbage is a byte to drop: there is no magic, or the
whole of what a header declares is there. -/
theorem garbage_resync {g t : List UInt8} {fs : List Frame} (hne : fs ≠ [])
    (hno : NoFrameIn (g ++ (fs.flatMap Frame.wire ++ t)) g.length)
    (hg : ¬ [0xA6, 0xF1] <:+: g ∨ 65548 ≤ (fs.flatMap Frame.wire ++ t).length) :
    ∀ i < g.length, codec.decode ((g ++ (fs.flatMap Frame.wire ++ t)).drop i) = .resync := by
  intro i hi
  rw [codec_decode]
  have hresync : decode ((g ++ (fs.flatMap Frame.wire ++ t)).drop i) ≠ .needMore →
      decode ((g ++ (fs.flatMap Frame.wire ++ t)).drop i) = .resync := by
    intro hwait
    cases hd : decode ((g ++ (fs.flatMap Frame.wire ++ t)).drop i) with
    | frame f used => exact absurd hd (hno i hi f used)
    | needMore => exact absurd hd hwait
    | resync => rfl
  rcases hg with hmagic | hlong
  · -- the two bytes at `i`, the second of which may be the first of a frame
    obtain ⟨f, fs, rfl⟩ := List.exists_cons_of_ne_nil hne
    have hfront : ∃ l, ((f :: fs).flatMap Frame.wire ++ t) = 0xA6 :: l := ⟨_, rfl⟩
    obtain ⟨l, hl⟩ := hfront
    rw [hl, List.drop_append_of_le_length (Nat.le_of_lt hi), List.drop_eq_getElem_cons hi]
    cases hrest : g.drop (i + 1) with
    | nil =>
        refine decode_of_no_magic ?_
        rintro ⟨-, h⟩
        exact absurd h (by decide)
    | cons b bs =>
        refine decode_of_no_magic ?_
        rintro ⟨ha, hb⟩
        refine hmagic ⟨g.take i, bs, ?_⟩
        have hsplit := List.take_append_drop i g
        rwa [List.drop_eq_getElem_cons hi, hrest, ha, hb, ← List.singleton_append,
          ← List.singleton_append (l := bs), ← List.append_assoc, ← List.append_assoc,
          List.append_assoc (g.take i)] at hsplit
  · refine hresync (decode_ne_needMore ?_)
    rw [List.length_drop, List.length_append]
    omega

namespace FrameReader

/-! ## Where a frame begins -/

/-- The bytes that `next_frame` drops before it returns. -/
def garbage : List UInt8 → Nat
  | [] => 0
  | b :: rest =>
      match decode (b :: rest) with
      | .resync => garbage rest + 1
      | _ => 0

/-- The frames the calls return, and where in the stream of bytes each of them begins;
`gone` bytes of it are no longer in the reader. -/
def runAt : Nat → FrameReader → List Call → List (Nat × OwnedFrame)
  | _, _, [] => []
  | gone, r, .feed chunk :: calls => runAt gone (r.feed chunk) calls
  | gone, r, .nextFrame :: calls =>
      match r.nextFrame with
      | (some f, r') =>
          (gone + garbage r.buf, f) :: runAt (gone + (r.buf.length - r'.buf.length)) r' calls
      | (none, r') => runAt (gone + (r.buf.length - r'.buf.length)) r' calls

theorem runAt_run : ∀ (calls : List Call) (gone : Nat) (r : FrameReader),
    (runAt gone r calls).map Prod.snd = (run r calls).1
  | [], _, _ => rfl
  | .feed _ :: calls, _, _ => runAt_run calls _ _
  | .nextFrame :: calls, gone, r => by
      cases hn : r.nextFrame with
      | mk o r' =>
        cases o with
        | none => simp only [runAt, run, hn, runAt_run calls]
        | some f => simp only [runAt, run, hn, List.map_cons, runAt_run calls]

/-- The frame that is returned begins behind the garbage. -/
theorem nextLoop_begins : ∀ {buf rest : List UInt8} {f : OwnedFrame},
    nextLoop buf = (some f, rest) →
      garbage buf ≤ buf.length ∧ ∃ used, decode (buf.drop (garbage buf)) = .frame f used
  | [], _, _, h => nomatch h
  | b :: bs, rest, f, h => by
      rw [nextLoop] at h
      rw [garbage]
      cases hd : decode (b :: bs) with
      | frame g used =>
          rw [hd] at h
          obtain rfl := Option.some.inj (Prod.mk.inj h).1
          exact ⟨Nat.zero_le _, used, hd⟩
      | needMore =>
          rw [hd] at h
          cases (Prod.mk.inj h).1
      | resync =>
          rw [hd] at h
          obtain ⟨hle, hbegins⟩ := @nextLoop_begins bs _ _ h
          exact ⟨Nat.succ_le_succ hle, hbegins⟩

/-- Every frame that the calls return begins, in the stream, where they say. -/
theorem runAt_begins {stream : List UInt8} {x : Nat × OwnedFrame} :
    ∀ {calls : List Call} {gone : Nat} {r : FrameReader}, gone ≤ stream.length →
      stream.drop gone = r.buf ++ fed calls → x ∈ runAt gone r calls →
      ∃ used, decode (stream.drop x.1) = .frame x.2 used
  | [], _, _, _, _, hx => nomatch hx
  | .feed chunk :: calls, gone, r, hle, hstream, hx => by
      refine runAt_begins (r := r.feed chunk) hle ?_ hx
      rw [hstream, fed, ← List.append_assoc]
      rfl
  | .nextFrame :: calls, gone, r, hle, hstream, hx => by
      have hsuffix := codec.next_suffix r.buf
      rw [← nextLoop_eq] at hsuffix
      have hlen := hsuffix.length_le
      have hgone : gone + (r.buf.length - r.nextFrame.2.buf.length) ≤ stream.length := by
        have hl := congrArg List.length hstream
        rw [List.length_drop, List.length_append] at hl
        omega
      have hnext : stream.drop (gone + (r.buf.length - r.nextFrame.2.buf.length))
          = r.nextFrame.2.buf ++ fed calls := by
        rw [← List.drop_drop, hstream, List.drop_append_of_le_length (Nat.sub_le _ _)]
        exact congrArg (· ++ fed calls) (List.suffix_iff_eq_drop.mp hsuffix).symm
      rw [runAt] at hx
      split at hx
      · rename_i f r' hn
        rw [hn] at hnext hgone
        rcases List.mem_cons.mp hx with rfl | hx
        · obtain ⟨hg, used, hd⟩ := nextLoop_begins
            (Prod.ext (Prod.mk.inj hn).1 rfl : nextLoop r.buf = (some f, _))
          refine ⟨used, ?_⟩
          rw [← List.drop_drop, hstream, List.drop_append_of_le_length hg]
          exact codec.frame_append _ hd
        · exact runAt_begins hgone hnext hx
      · rename_i r' hn
        rw [hn] at hnext hgone
        exact runAt_begins hgone hnext hx

/-- **Resynchronisation loses no frame.**  For every garbage `g`, frames `fs` and bytes
`t` behind them such that no frame begins in `g`, fed in any chunks: the frames come
out first and in order, if there is no magic in `g` or the largest frame has room
behind it; and no frame that begins in `g` ever comes out. -/
theorem resync_loses_no_frame {g t : List UInt8} {fs : List OwnedFrame}
    (hfs : ∀ f ∈ fs, f.payload.length ≤ 0xFFFF) {calls : List Call}
    (hfed : fed calls = g ++ (fs.flatMap Frame.wire ++ t)) (hno : NoFrameIn (fed calls) g.length) :
    ((¬ [0xA6, 0xF1] <:+: g ∨ 65548 ≤ (fs.flatMap Frame.wire ++ t).length) →
      fs <+: (run new calls).1 ++ (run new calls).2.drain.1) ∧
    ∀ x ∈ runAt 0 new calls, g.length ≤ x.1 := by
  constructor
  · intro hg
    have hall : (run new calls).1 ++ (run new calls).2.drain.1 = (codec.drain (fed calls)).1 := by
      have h := congrArg Prod.fst (run_drain_chunks calls)
      rwa [new_feed, drain_eq ⟨fed calls⟩] at h
    rw [hall, hfed]
    rcases eq_or_ne fs [] with rfl | hne
    · exact List.nil_prefix
    · rw [hfed] at hno
      have hskip := codec.next_skip (garbage_resync hne hno hg)
      rw [codec.drain_congr hskip, codec_drain_wires hfs]
      exact List.prefix_append _ _
  · intro x hx
    by_contra hlt
    obtain ⟨used, hd⟩ := @runAt_begins (fed calls) _ _ _ _ (Nat.zero_le _) rfl hx
    exact hno x.1 (Nat.not_le.mp hlt) x.2 used hd

/-- Junk, then a PONG. -/
def junk : List UInt8 := [0xDE, 0xAD, 0xBE]

def pongFrame : OwnedFrame := { typ := .pong, flags := 0, seq := 1, payload := [0x78] }

theorem junk_dropped : ∀ i < 3, decode ((junk ++ pongFrame.wire).drop i) = .resync := by
  decide +kernel

theorem resync_loses_no_frame_junk :
    let calls : List Call := [.feed junk, .nextFrame, .feed pongFrame.wire]
    [pongFrame] <+: (run new calls).1 ++ (run new calls).2.drain.1 ∧
      ∀ x ∈ runAt 0 new calls, 3 ≤ x.1 := by
  intro calls
  have hfed : fed calls = junk ++ ([pongFrame].flatMap Frame.wire ++ []) := by
    show junk ++ (pongFrame.wire ++ []) = _
    rw [List.append_nil, List.append_nil, List.flatMap_singleton]
  have hno : NoFrameIn (fed calls) junk.length := by
    intro i hi f used hd
    rw [hfed, List.append_nil, List.flatMap_singleton, junk_dropped i hi] at hd
    exact nomatch hd
  have h := resync_loses_no_frame (List.forall_mem_singleton.mpr (by decide)) hfed hno
  exact ⟨h.1 (.inl (by decide)), h.2⟩

end FrameReader

end FlipLink
