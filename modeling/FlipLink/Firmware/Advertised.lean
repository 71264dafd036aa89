/-
# `FlipLink.Firmware.Advertised` — what CAPS lists and what a REQ gets

CAPS is built from the table that `find` and `is_streaming` look into, but the third place
that knows the opcodes, the match of `handle_frame` on a streaming one, does not read it,
and the handlers choose their own error codes.  Still the codes 1 and 2 mean what CAPS
says (`unlisted_iff`): a REQ gets them exactly if CAPS does not list its instrument, or lists
it without the opcode.  Whatever else a REQ is refused with is one of the few errors of its
opcode (`refusals`), and "unknown streaming opcode" is never sent.
-/
import FlipLink.Firmware.Replies

namespace FlipLink.Advertised

open Lib Subghz Replies Refusals

/-- None of them is one of the two that name what is not there. -/
theorem known_of_refusals {instrument opcode : String} {e : UInt32 × String}
    (h : e ∈ refusals instrument opcode) : e.1 ≠ errUnknownInstrument ∧ e.1 ≠ errUnknownOpcode :=
  forall_refusals (P := fun e => e.1 ≠ errUnknownInstrument ∧ e.1 ≠ errUnknownOpcode) (by decide) h

/-! ## A REQ -/

/-- The errors among the frames sent. -/
def refusedWith (ms : List Sent) : List (UInt32 × String) :=
  ms.filterMap fun
    | .error _ code message => some (code, message)
    | _ => none

theorem refusedWith_answer {es : List (UInt32 × String)} {P : Value → Prop} {x : HandlerResult}
    (h : Ends es P x) (seq : UInt16) : ∀ e ∈ refusedWith [answer seq x], e ∈ es := by
  intro e he
  cases x with
  | ok v => cases he
  | error e' =>
      obtain rfl : e = e' := List.mem_singleton.mp he
      exact h

theorem refusedWith_starts {es : List (UInt32 × String)} {seq : UInt16} {format : String}
    {ms : List Sent} (h : Starts es seq format ms) : ∀ e ∈ refusedWith ms, e ∈ es := by
  intro e he
  rcases h with rfl | ⟨e', he', rfl⟩
  · cases he
  · obtain rfl : e = e' := List.mem_singleton.mp he
    exact he'

/-- A REQ that starts no stream goes to its handler. -/
theorem handleReq_dispatched {hal : Device.Hal} {req : Req} (seq : UInt16) (d : Device)
    (hstream : isStreaming req.instrument req.opcode = false) :
    Device.handleReq hal seq req d
      = (d, [answer seq (dispatch hal.hardware req.instrument req.opcode req.params)]) := by
  rw [Device.handleReq, if_neg (by rw [hstream]; exact Bool.false_ne_true)]
  cases dispatch hal.hardware req.instrument req.opcode req.params <;> rfl

/-- The table has one entry of a name. -/
theorem find_entry {i : InstrumentEntry} (hi : i ∈ instruments) :
    instruments.find? (·.id = i.id) = some i := by
  simp only [instruments, List.mem_cons, List.not_mem_nil, or_false] at hi
  rcases hi with rfl | rfl | rfl <;> rfl

theorem refusedWith_unknownInstrument {hal : Device.Hal} {req : Req} (seq : UInt16) (d : Device)
    (h : ∀ i ∈ instruments, i.id ≠ req.instrument) :
    refusedWith (Device.handleReq hal seq req d).2
      = [(errUnknownInstrument, "unknown instrument")] := by
  have hnone : instruments.find? (·.id = req.instrument) = none :=
    List.find?_eq_none.mpr fun i hi => by simpa using h i hi
  have hhas : hasInstrument req.instrument = false :=
    List.any_eq_false.mpr fun i hi => by simpa using h i hi
  have hstream : isStreaming req.instrument req.opcode = false := by
    rw [isStreaming, hnone]
  have hfind : find hal.hardware req.instrument req.opcode = none := by
    unfold find
    rw [hnone]
  rw [handleReq_dispatched seq d hstream, dispatch, hfind]
  dsimp only
  rw [hhas]
  rfl

theorem refusedWith_unknownOpcode {hal : Device.Hal} {req : Req} (seq : UInt16) (d : Device)
    {i : InstrumentEntry} (hi : i ∈ instruments) (hid : i.id = req.instrument)
    (h : req.opcode ∉ i.opcodes ++ i.streamingOpcodes) :
    refusedWith (Device.handleReq hal seq req d).2 = [(errUnknownOpcode, "unknown opcode")] := by
  obtain ⟨hplain, hstreaming⟩ := not_or.mp (List.mem_append.not.mp h)
  have hsome : instruments.find? (·.id = req.instrument) = some i := hid ▸ find_entry hi
  have hhas : hasInstrument req.instrument = true :=
    List.any_eq_true.mpr ⟨i, hi, decide_eq_true hid⟩
  have hstream : isStreaming req.instrument req.opcode = false := by
    rw [isStreaming, hsome]
    show i.streamingOpcodes.contains req.opcode = false
    rw [List.contains_eq_mem]
    exact decide_eq_false hstreaming
  have hfind : find hal.hardware req.instrument req.opcode = none := by
    unfold find
    rw [hsome]
    exact if_neg hplain
  rw [handleReq_dispatched seq d hstream, dispatch, hfind]
  dsimp only
  rw [hhas]
  rfl

section Listed

variable (hal : AppHal) (tx : Ir.TxHal) (t : Ir.Tx) (a : App)

theorem refusedWith_listed {req : Req} (seq : UInt16) {i : InstrumentEntry}
    (hi : i ∈ instruments) (hid : i.id = req.instrument)
    (h : req.opcode ∈ i.opcodes ++ i.streamingOpcodes) :
    ∀ e ∈ refusedWith (Device.handleReq (a.deviceHal (withIr hal tx t)) seq req a.device).2,
      e ∈ refusals req.instrument req.opcode := by
  obtain ⟨instrument, opcode, params⟩ := req
  dsimp only at hid h ⊢
  subst hid
  simp only [instruments, List.mem_cons, List.not_mem_nil, or_false] at hi
  rcases hi with rfl | rfl | rfl
  all_goals simp only [List.cons_append, List.nil_append, List.mem_cons, List.not_mem_nil,
    or_false] at h
  · rcases h with rfl | rfl
    · exact refusedWith_answer (P := fun _ => True) (x := version params) trivial seq
    · exact refusedWith_answer (P := fun _ => True) (x := echo params) trivial seq
  · rcases h with rfl | rfl
    · rw [handleReq_dispatched seq a.device rfl]
      exact refusedWith_answer (irTransmit_ends tx params t) seq
    · exact refusedWith_starts (irStart_starts hal.ir seq a.device.ir)
  · rcases h with rfl | rfl | rfl
    · rw [handleReq_dispatched seq a.device rfl]
      exact refusedWith_answer (transmit_ends hal.radio a.device.subghz.active params a.radio) seq
    · rw [handleReq_dispatched seq a.device rfl]
      exact refusedWith_answer (linkProbe_ends hal.radio a.device.subghz.active params a.radio)
        seq
    · exact refusedWith_starts
        (subghzStart_starts hal.radio.toHal seq params a.device.subghz)

theorem mem_buildCaps {instrument : String} {ops : List String} :
    (instrument, ops) ∈ buildCaps ↔
      ∃ i ∈ instruments, i.id = instrument ∧ i.opcodes ++ i.streamingOpcodes = ops := by
  rw [buildCaps, List.mem_map]
  simp only [Prod.mk.injEq]

/-- **CAPS tells what a REQ gets.**  Whatever the state of the application and of its hardware:
a REQ is refused with code 1 exactly if CAPS does not list its instrument, and with code 2
exactly if CAPS lists the instrument without the opcode; any other refusal of it is one of the
errors of its opcode. -/
theorem unlisted_iff (req : Req) (seq : UInt16) :
    let refused :=
      refusedWith (Device.handleReq (a.deviceHal (withIr hal tx t)) seq req a.device).2
    ((∃ message, (errUnknownInstrument, message) ∈ refused) ↔
        ∀ ops, (req.instrument, ops) ∉ buildCaps) ∧
      ((∃ message, (errUnknownOpcode, message) ∈ refused) ↔
        ∃ ops, (req.instrument, ops) ∈ buildCaps ∧ req.opcode ∉ ops) ∧
      ∀ e ∈ refused, e = (errUnknownInstrument, "unknown instrument") ∨
        e = (errUnknownOpcode, "unknown opcode") ∨ e ∈ refusals req.instrument req.opcode := by
  intro refused
  by_cases hknown : ∃ i ∈ instruments, i.id = req.instrument
  · obtain ⟨i, hi, hid⟩ := hknown
    have hcaps : (req.instrument, i.opcodes ++ i.streamingOpcodes) ∈ buildCaps :=
      mem_buildCaps.mpr ⟨i, hi, hid, rfl⟩
    have hunique : ∀ {ops}, (req.instrument, ops) ∈ buildCaps →
        i.opcodes ++ i.streamingOpcodes = ops := by
      intro ops hops
      obtain ⟨j, hj, hjd, rfl⟩ := mem_buildCaps.mp hops
      have hij := (find_entry hi).symm.trans ((hid.trans hjd.symm) ▸ find_entry hj)
      rw [Option.some.inj hij]
    by_cases hopcode : req.opcode ∈ i.opcodes ++ i.streamingOpcodes
    · have hrefused : ∀ e ∈ refused, e ∈ refusals req.instrument req.opcode :=
        refusedWith_listed hal tx t a seq hi hid hopcode
      refine ⟨iff_of_false ?_ fun h => h _ hcaps, iff_of_false ?_ ?_,
        fun e he => .inr (.inr (hrefused e he))⟩
      · rintro ⟨message, hm⟩
        exact (known_of_refusals (hrefused _ hm)).1 rfl
      · rintro ⟨message, hm⟩
        exact (known_of_refusals (hrefused _ hm)).2 rfl
      · rintro ⟨ops, hops, hnot⟩
        exact hnot (hunique hops ▸ hopcode)
    · have hrefused : refused = [(errUnknownOpcode, "unknown opcode")] :=
        refusedWith_unknownOpcode seq a.device hi hid hopcode
      rw [hrefused]
      refine ⟨iff_of_false ?_ fun h => h _ hcaps, iff_of_true ⟨_, List.mem_singleton_self _⟩
        ⟨_, hcaps, hopcode⟩, fun e he => .inr (.inl (List.mem_singleton.mp he))⟩
      rintro ⟨message, hm⟩
      have hcode : errUnknownInstrument = errUnknownOpcode :=
        congrArg Prod.fst (List.mem_singleton.mp hm)
      exact absurd hcode (by decide)
  · have hunknown : ∀ i ∈ instruments, i.id ≠ req.instrument := fun i hi hid =>
      hknown ⟨i, hi, hid⟩
    have hcaps : ∀ ops, (req.instrument, ops) ∉ buildCaps := by
      intro ops hops
      obtain ⟨i, hi, hid, -⟩ := mem_buildCaps.mp hops
      exact hunknown i hi hid
    have hrefused : refused = [(errUnknownInstrument, "unknown instrument")] :=
      refusedWith_unknownInstrument seq a.device hunknown
    rw [hrefused]
    refine ⟨iff_of_true ⟨_, List.mem_singleton_self _⟩ hcaps, iff_of_false ?_ ?_,
      fun e he => .inl (List.mem_singleton.mp he)⟩
    · rintro ⟨message, hm⟩
      have hcode : errUnknownOpcode = errUnknownInstrument :=
        congrArg Prod.fst (List.mem_singleton.mp hm)
      exact absurd hcode (by decide)
    · rintro ⟨ops, hops, -⟩
      exact hcaps ops hops

end Listed

end FlipLink.Advertised
