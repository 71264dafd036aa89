/-
# `FlipLink.Firmware.IrTransmit` — IR transmission

`transmit` of `ir_instrument.rs` reads the timings of a request, publishes them in
the statics `TX_PTR`, `TX_LEN` and `TX_POS` and starts the transmitter, whose
interrupt takes one timing after the other with `tx_get_data`.  The duty cycle is
handed on as a number; its conversion to a float is the HAL's business.

`tx_get_data` plays what is published (`handed_eq`).  What is published is not
always what was asked: an element that is no unsigned integer is left out, so that
the timings behind it change places, mark for space, and one of 2^32 and more is cut
to its low half.  `transmits_iff` says when neither happens.
-/
import FlipLink.Firmware.Send

namespace FlipLink.Ir

def defaultFreq : UInt32 := 38000
def defaultDutyPermille : UInt32 := 330
def maxEdges : Nat := 1024

/-! ## The interrupt -/

/-- The statics of a transmission. -/
structure Tx where
  /-- `TX_PTR`; `none` is the null pointer. -/
  ptr : Option (List UInt32)
  len : Nat
  pos : Nat
  deriving DecidableEq, Repr

/-- The statics at load time. -/
def Tx.initial : Tx := { ptr := none, len := 0, pos := 0 }

/-- The stores of `transmit`. -/
def Tx.publish (timings : List UInt32) : Tx :=
  { ptr := some timings, len := timings.length, pos := 0 }

inductive TxGetDataState where
  | ok | lastDone
  deriving DecidableEq, Repr

/-- What a call of `tx_get_data` returns, and the duration and level that it writes. -/
structure TxData where
  state : TxGetDataState
  written : Option (UInt32 × Bool)
  deriving DecidableEq, Repr

/-- `tx_get_data`; `none` is a read outside the timings. -/
def txGetData (t : Tx) : Option (TxData × Tx) :=
  match t.ptr with
  | none => some (⟨.lastDone, none⟩, t)
  | some timings =>
      if t.pos ≥ t.len then some (⟨.lastDone, none⟩, t)
      else
        match timings[t.pos]? with
        | none => none
        | some duration =>
            some (⟨if t.pos + 1 ≥ t.len then .lastDone else .ok, some (duration, t.pos % 2 == 0)⟩,
              { t with pos := t.pos + 1 })

/-- What `m` calls of `tx_get_data` write. -/
def handed : Nat → Tx → Option (List (UInt32 × Bool) × Tx)
  | 0, t => some ([], t)
  | m + 1, t => do
      let (d, t) ← txGetData t
      let (ps, t) ← handed m t
      return (d.written.toList ++ ps, t)

/-! ## `transmit` -/

def asU64 : Value → Option UInt64
  | .u64 n => some n
  | .i64 n => if 0 ≤ n.toInt then some n.toUInt64 else none
  | _ => none

def frequency (params : Value) : UInt32 :=
  (((params.get "frequency").bind asU64).getD defaultFreq.toUInt64).toUInt32

def dutyPermille (params : Value) : UInt32 :=
  (((params.get "duty_permille").bind asU64).getD defaultDutyPermille.toUInt64).toUInt32

/-- The timings that are kept of an array. -/
def timings (a : List Value) : List UInt32 := (a.filterMap asU64).map UInt64.toUInt32

/-- What the HAL answers. -/
structure TxHal where
  /-- `furi_hal_infrared_is_busy`. -/
  busy : Bool
  /-- The calls of `tx_get_data` before the transmission terminates. -/
  calls : Nat
  deriving DecidableEq, Repr

/-- A call of the HAL. -/
inductive TxCall where
  | setDataIsrCallback
  /-- `async_tx_start`, and the statics as the interrupt finds them. -/
  | start (frequency dutyPermille : UInt32) (tx : Tx)
  | waitTermination
  deriving DecidableEq, Repr

/-- What `transmit` leaves, the calls it has made, and what it returns. -/
structure TxRan where
  tx : Tx
  calls : List TxCall
  result : Except (UInt32 × String) Value

def transmit (hal : TxHal) (params : Value) (t : Tx) : TxRan :=
  match params.get "timings" with
  | some (.array a) =>
      if (timings a).isEmpty then ⟨t, [], .error (errBadParams, "timings empty")⟩
      else if (timings a).length > maxEdges then ⟨t, [], .error (errOversized, "too many timings")⟩
      else if hal.busy then ⟨t, [], .error (errBusy, "ir busy")⟩
      else
        let tx := Tx.publish (timings a)
        let done := ((handed hal.calls tx).map Prod.snd).getD tx
        ⟨{ done with ptr := none },
          [.setDataIsrCallback, .start (frequency params) (dutyPermille params) tx,
            .waitTermination],
          .ok (.map [("sent", .u64 (.ofNat (timings a).length))])⟩
  | _ => ⟨t, [], .error (errBadParams, "timings array required")⟩

/-! ## What is played -/

/-- Timings with their levels, from position `k` on. -/
def leveled : Nat → List UInt32 → List (UInt32 × Bool)
  | _, [] => []
  | k, d :: ds => (d, k % 2 == 0) :: leveled (k + 1) ds

theorem leveled_fst : ∀ (k : Nat) (ts : List UInt32), (leveled k ts).map Prod.fst = ts
  | _, [] => rfl
  | k, d :: ds => congrArg (d :: ·) (leveled_fst (k + 1) ds)

theorem leveled_snd : ∀ (k : Nat) (ts : List UInt32),
    (leveled k ts).map Prod.snd = (List.range' k ts.length).map (· % 2 == 0)
  | _, [] => rfl
  | k, _ :: ds => congrArg ((k % 2 == 0) :: ·) (leveled_snd (k + 1) ds)

/-- `m` calls write the next `m` timings, marks at even places and spaces at odd ones. -/
theorem handed_eq (ts : List UInt32) : ∀ m k : Nat, k ≤ ts.length →
    ∃ t, handed m { ptr := some ts, len := ts.length, pos := k }
      = some ((leveled k (ts.drop k)).take m, t)
  | 0, _, _ => ⟨_, rfl⟩
  | m + 1, k, hk => by
      rcases Nat.lt_or_eq_of_le hk with hlt | rfl
      · obtain ⟨t, ht⟩ := handed_eq ts m (k + 1) hlt
        have hdata : ∃ state, txGetData { ptr := some ts, len := ts.length, pos := k }
            = some (⟨state, some (ts[k], k % 2 == 0)⟩,
                { ptr := some ts, len := ts.length, pos := k + 1 }) := by
          rw [txGetData]
          dsimp only
          rw [if_neg (Nat.not_le.mpr hlt), List.getElem?_eq_getElem hlt]
          exact ⟨_, rfl⟩
        obtain ⟨state, hdata⟩ := hdata
        refine ⟨t, ?_⟩
        rw [handed, hdata, List.drop_eq_getElem_cons hlt, leveled, List.take_succ_cons]
        dsimp only [Option.bind_eq_bind, Option.bind_some]
        rw [ht]
        rfl
      · obtain ⟨t, ht⟩ := handed_eq ts m ts.length hk
        have hdata : txGetData { ptr := some ts, len := ts.length, pos := ts.length }
            = some (⟨.lastDone, none⟩, { ptr := some ts, len := ts.length, pos := ts.length }) := by
          rw [txGetData]
          dsimp only
          rw [if_pos (Nat.le_refl _)]
        refine ⟨t, ?_⟩
        rw [List.drop_length, leveled, List.take_nil] at ht ⊢
        rw [handed, hdata]
        dsimp only [Option.bind_eq_bind, Option.bind_some]
        rw [ht]
        rfl

theorem handed_publish (ts : List UInt32) (m : Nat) :
    ∃ t, handed m (.publish ts) = some ((leveled 0 ts).take m, t) := by
  have h := handed_eq ts m 0 (Nat.zero_le _)
  rwa [List.drop_zero] at h

/-! ## What is published -/

/-- An element that survives the filter and the cast: an integer from 0 below 2^32. -/
def FitsU32 (v : Value) : Prop := ∃ n : Int, v.number = some n ∧ 0 ≤ n ∧ n < 2 ^ 32

/-- The number of an element that is kept is the one that was sent. -/
theorem number_of_asU64 : ∀ {v : Value} {n : UInt64}, asU64 v = some n →
    v.number = some (n.toNat : Int)
  | .u64 m, n, h => by
      cases h
      rfl
  | .i64 m, n, h => by
      rw [asU64] at h
      split_ifs at h with hpos
      cases h
      have hle : 0 ≤ m := Int64.le_iff_toInt_le.mpr hpos
      rw [Int64.toNat_toUInt64_of_le hle, Int64.cast_toNatClampNeg m hle]
      rfl

/-- It is left out exactly if it is no integer from 0 on. -/
theorem asU64_of_number : ∀ {v : Value} {n : Int}, v.number = some n → 0 ≤ n →
    ∃ k, asU64 v = some k
  | .u64 m, _, _, _ => ⟨m, rfl⟩
  | .i64 m, n, h, hpos => by
      cases h
      exact ⟨m.toUInt64, if_pos hpos⟩

theorem fitsU32_iff {v : Value} : FitsU32 v ↔ ∃ n, asU64 v = some n ∧ n.toNat < 2 ^ 32 := by
  constructor
  · rintro ⟨n, hn, hpos, hlt⟩
    obtain ⟨k, hk⟩ := asU64_of_number hn hpos
    have hnat := Option.some.inj ((number_of_asU64 hk).symm.trans hn)
    exact ⟨k, hk, by omega⟩
  · rintro ⟨k, hk, hlt⟩
    exact ⟨k.toNat, number_of_asU64 hk, by omega, by omega⟩

/-- The cast changes no number that fits, and every other one. -/
theorem toNat_toUInt32_eq {n : UInt64} : n.toUInt32.toNat = n.toNat ↔ n.toNat < 2 ^ 32 := by
  rw [UInt64.toNat_toUInt32]
  exact Nat.mod_eq_iff_lt (by decide)

/-- A list of durations as the numbers they are. -/
def numbers (ts : List UInt32) : List (Option Int) := ts.map fun d => some (d.toNat : Int)

theorem timings_cons {v : Value} {n : UInt64} (h : asU64 v = some n) (a : List Value) :
    timings (v :: a) = n.toUInt32 :: timings a := by
  rw [timings, List.filterMap_cons_some h]
  rfl

/-- When nothing is left out, the numbers are those of the array if all fit. -/
theorem numbers_timings_of_kept : ∀ {a : List Value}, (∀ v ∈ a, (asU64 v).isSome) →
    (numbers (timings a) = a.map Value.number ↔ ∀ v ∈ a, FitsU32 v)
  | [], _ => iff_of_true rfl (List.forall_mem_nil _)
  | v :: a, hkept => by
      obtain ⟨hv, ha⟩ := List.forall_mem_cons.mp hkept
      obtain ⟨n, hn⟩ := Option.isSome_iff_exists.mp hv
      have hfits : FitsU32 v ↔ n.toUInt32.toNat = n.toNat := by
        rw [toNat_toUInt32_eq, fitsU32_iff]
        exact ⟨fun ⟨k, hk, hlt⟩ => Option.some.inj (hk.symm.trans hn) ▸ hlt,
          fun hlt => ⟨n, hn, hlt⟩⟩
      rw [timings_cons hn, List.forall_mem_cons, hfits, ← numbers_timings_of_kept ha, numbers,
        List.map_cons, List.map_cons, number_of_asU64 hn, List.cons.injEq, Option.some.injEq,
        Int.natCast_inj]
      rfl

/-- What is published is the array element for element exactly if all fit. -/
theorem numbers_timings {a : List Value} :
    numbers (timings a) = a.map Value.number ↔ ∀ v ∈ a, FitsU32 v := by
  by_cases hkept : ∀ v ∈ a, (asU64 v).isSome
  · exact numbers_timings_of_kept hkept
  · refine iff_of_false (fun heq => hkept ?_) fun hfits => hkept fun v hv => ?_
    · have hlen := congrArg List.length heq
      rw [numbers, timings, List.length_map, List.length_map, List.length_map] at hlen
      exact List.filterMap_length_eq_length.mp hlen
    · obtain ⟨n, hn, -⟩ := fitsU32_iff.mp (hfits v hv)
      exact Option.isSome_iff_exists.mpr ⟨n, hn⟩

theorem length_timings_of_fits {a : List Value} (h : ∀ v ∈ a, FitsU32 v) :
    (timings a).length = a.length := by
  have hlen := congrArg List.length (numbers_timings.mpr h)
  rwa [numbers, List.length_map, List.length_map] at hlen

/-! ## What is played -/

/-- The calls of `tx_get_data` hand over the elements of the array one by one, marks
and spaces in turn, a mark first. -/
def Plays (a : List Value) (tx : Tx) : Prop :=
  ∀ m, ∃ ps t, handed m tx = some (ps, t) ∧
    numbers (ps.map Prod.fst) = (a.map Value.number).take m ∧
    ps.map Prod.snd = (List.range ps.length).map (· % 2 == 0)

theorem leveled_length (k : Nat) (ts : List UInt32) : (leveled k ts).length = ts.length := by
  rw [← List.length_map (f := Prod.fst), leveled_fst]

theorem plays_publish_iff {a : List Value} :
    Plays a (.publish (timings a)) ↔ ∀ v ∈ a, FitsU32 v := by
  rw [← numbers_timings]
  constructor
  · intro h
    -- as many calls as there are timings on either side
    obtain ⟨ps, t, hps, hnumbers, -⟩ := h (max (timings a).length a.length)
    obtain ⟨t', ht'⟩ := handed_publish (timings a) (max (timings a).length a.length)
    obtain ⟨rfl, -⟩ := Prod.mk.inj (Option.some.inj (hps.symm.trans ht'))
    rw [List.take_of_length_le (by rw [leveled_length]; exact Nat.le_max_left _ _), leveled_fst,
      List.take_of_length_le (by rw [List.length_map]; exact Nat.le_max_right _ _)] at hnumbers
    exact hnumbers
  · intro heq m
    obtain ⟨t, ht⟩ := handed_publish (timings a) m
    refine ⟨_, t, ht, ?_, ?_⟩
    · rw [List.map_take, leveled_fst, numbers, List.map_take, ← heq, numbers]
    · rw [List.map_take, leveled_snd, ← List.map_take, List.length_take, leveled_length,
        ← List.range_eq_range', List.take_range]

/-- `ir.transmit` plays what was asked and reports its length, or it refuses before it
has touched the transmitter. -/
def TransmitsExactly (params : Value) (t : TxRan) : Prop :=
  ((∃ e, t.result = .error e) ∧ t.calls = []) ∨
  ∃ a freq duty tx, params.get "timings" = some (.array a) ∧
    t.calls = [.setDataIsrCallback, .start freq duty tx, .waitTermination] ∧ Plays a tx ∧
    t.result = .ok (.map [("sent", .u64 (.ofNat a.length))])

/-- What `transmit` does, by the checks it makes. -/
theorem transmit_cases (hal : TxHal) (params : Value) (t : Tx) :
    (∃ e, transmit hal params t = ⟨t, [], .error e⟩ ∧
      (hal.busy = true ∨ ∀ a, params.get "timings" = some (.array a) →
        a.filterMap asU64 = [] ∨ maxEdges < (a.filterMap asU64).length)) ∨
    ∃ a tx', params.get "timings" = some (.array a) ∧ a.filterMap asU64 ≠ [] ∧
      (a.filterMap asU64).length ≤ maxEdges ∧ hal.busy = false ∧
      transmit hal params t = ⟨tx',
        [.setDataIsrCallback,
          .start (frequency params) (dutyPermille params) (.publish (timings a)), .waitTermination],
        .ok (.map [("sent", .u64 (.ofNat (timings a).length))])⟩ := by
  unfold transmit
  split
  · rename_i a ha
    have hother : ∀ b, params.get "timings" = some (.array b) → b = a := fun b hb => by
      cases hb.symm.trans ha
      rfl
    have hlen : (timings a).length = (a.filterMap asU64).length := List.length_map _
    split_ifs with hempty hmany hbusy
    · refine .inl ⟨_, rfl, .inr fun b hb => .inl ?_⟩
      rw [hother b hb]
      exact List.map_eq_nil_iff.mp (List.isEmpty_iff.mp hempty)
    · refine .inl ⟨_, rfl, .inr fun b hb => .inr ?_⟩
      rw [hother b hb, ← hlen]
      exact hmany
    · exact .inl ⟨_, rfl, .inl hbusy⟩
    · refine .inr ⟨a, _, ha, fun hnil => hempty ?_, hlen ▸ Nat.not_lt.mp hmany,
        Bool.eq_false_iff.mpr hbusy, rfl⟩
      rw [timings, hnil]
      rfl
  · rename_i hno
    exact .inl ⟨_, rfl, .inr fun b hb => absurd hb (hno b)⟩

/-- **When `ir.transmit` plays what was asked.**  A request that is not refused is
played as it was sent exactly if each of its timings is an integer from 0 below 2^32. -/
theorem transmits_iff (hal : TxHal) (params : Value) (t : Tx) :
    TransmitsExactly params (transmit hal params t) ↔
      hal.busy = true ∨ ∀ a, params.get "timings" = some (.array a) →
        a.filterMap asU64 = [] ∨ maxEdges < (a.filterMap asU64).length ∨ ∀ v ∈ a, FitsU32 v := by
  rcases transmit_cases hal params t with ⟨e, heq, hrefused⟩ | ⟨a, tx', ha, hne, hle, hbusy, heq⟩
  · rw [heq]
    refine iff_of_true (.inl ⟨⟨e, rfl⟩, rfl⟩) (hrefused.imp_right fun h a ha => ?_)
    exact (h a ha).imp_right .inl
  · rw [heq]
    constructor
    · rintro (⟨⟨e, he⟩, -⟩ | ⟨b, freq, duty, tx, hb, hcalls, hplays, -⟩)
      · exact nomatch he
      · cases ha.symm.trans hb
        cases hcalls
        exact .inr fun b hb =>
          .inr (.inr (by cases ha.symm.trans hb; exact plays_publish_iff.mp hplays))
    · rintro (hb | h)
      · exact nomatch hbusy.symm.trans hb
      · rcases h a ha with hnil | hmany | hfits
        · exact absurd hnil hne
        · exact absurd hmany (Nat.not_lt.mpr hle)
        · refine .inr ⟨a, _, _, _, ha, rfl, plays_publish_iff.mpr hfits, ?_⟩
          rw [length_timings_of_fits hfits]

/-- The interrupt's transmitter is free and takes every timing. -/
def txGranted : TxHal := { busy := false, calls := 3 }

/-- A mark of 2^32 + 500 us is played as one of 500 us. -/
theorem transmits_cut :
    ¬ TransmitsExactly (.map [("timings", .array [.u64 4294967796, .u64 1000])])
      (transmit txGranted (.map [("timings", .array [.u64 4294967796, .u64 1000])]) .initial) := by
  rintro (⟨⟨e, he⟩, -⟩ | ⟨a, freq, duty, tx, ha, hcalls, hplays, -⟩)
  · exact nomatch he
  · cases ha
    cases hcalls
    obtain ⟨ps, t, hps, hnumbers, -⟩ := hplays 1
    cases hps
    exact absurd hnumbers (by decide)

end FlipLink.Ir
