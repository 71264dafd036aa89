/-
# `FlipLink.Daemon.Pump` — the pump reads what the device sends

While the link is up, the owner's reader sees the bytes of the device's frames one
after the other, in whatever pieces the reads return them.  `unread` is what it has
of them and has not delivered, and the frames that arrive are those at the front
(`run_pump`).
-/
import FlipLink.Daemon.Steps

namespace FlipLink.Daemon

open Lib

/-- The pump is running. -/
def Owner.up : Owner → Bool
  | .out _ | .write .. | .read _ | .frames _ | .lookup .. | .send .. => true
  | _ => false

/-- The device link is up. -/
def LinkUp (s : State) (_ : Label) : Prop := s.owner.up = true

instance (s : State) (l : Label) : Decidable (LinkUp s l) :=
  inferInstanceAs (Decidable (_ = true))

/-- What the pump has read and not decoded. -/
def Owner.undecoded : Owner → List UInt8
  | .out reader | .write reader _ _ | .read reader | .frames reader | .lookup reader _
  | .send reader _ _ => reader.buf
  | _ => []

/-- The frame that it has decoded and is about to deliver. -/
def Owner.decoded : Owner → List Frame
  | .lookup _ f => [f]
  | _ => []

def OwnerInput.bytes : OwnerInput → List UInt8
  | .read (some bytes) => bytes
  | _ => []

def Owner.Answer.bytes : Owner.Answer → List UInt8
  | .read (some bytes) => bytes
  | _ => []

/-- The bytes that the owner reads from the link. -/
def bytesRead (ls : List Label) : List UInt8 :=
  ls.flatMap fun
    | .owner inp => inp.bytes
    | _ => []

/-- The frames that come from the device. -/
def arrivals (es : List Event) : List Frame :=
  es.filterMap fun
    | .arrived f => some f
    | _ => none

section Pump

variable {s s₁ : State} {a : Owner.Answer} {es : List Event}

theorem own_bytes {n : Owner.Need} {inp : OwnerInput} (h : own s n inp = some (a, s₁, es)) :
    a.bytes = inp.bytes := by
  unfold own at h
  split at h
  case h_5 r => cases h; cases r <;> rfl
  all_goals first
    | (cases h; rfl)
    | (split at h <;> first | (cases h; rfl) | (split_ifs at h <;> cases h <;> rfl))
    | (split_ifs at h; cases h; rfl)
    | exact nomatch h

/-- A client's step brings no frame from the device. -/
theorem ClientMove.arrivals_nil {i : Nat} {inp : ClientInput} {p p' : Phase}
    (h : ClientMove s i inp p s₁ p' es) : arrivals es = [] := by
  cases h <;> rfl

variable {o' : Owner} {gs : List Frame} {more : List UInt8}

/-- A step of the pump, against the frames that the device sends. -/
theorem pump_moves (hgs : ∀ g ∈ gs, g.payload.length ≤ 0xFFFF) :
    ∀ {o : Owner}, o.up = true → Owned s o.need a s₁ es → o.resume s.now a = some o' →
      o.undecoded ++ (a.bytes ++ more) <+: gs.flatMap Frame.wire →
      ∃ gs', gs' <:+ gs ∧ o.decoded ++ gs = arrivals es ++ (o'.decoded ++ gs') ∧
        (o'.up = true → o'.undecoded ++ more <+: gs'.flatMap Frame.wire)
  | .out _, _, .popped _, hr, hpre | .out _, _, .empty _, hr, hpre => by
      cases hr
      exact ⟨gs, List.suffix_rfl, rfl, fun _ => hpre⟩
  | .write _ _ [], _, .go, hr, hpre => by
      cases hr
      exact ⟨gs, List.suffix_rfl, rfl, fun _ => hpre⟩
  | .write _ _ (_ :: _), _, .write true, hr, hpre => by
      cases hr
      exact ⟨gs, List.suffix_rfl, rfl, fun _ => hpre⟩
  | .write _ _ (_ :: _), _, .write false, hr, _ => by
      cases hr
      exact ⟨gs, List.suffix_rfl, rfl, nofun⟩
  | .read _, _, .read none, hr, _ => by
      cases hr
      exact ⟨gs, List.suffix_rfl, rfl, nofun⟩
  | .read reader, _, .read (some bytes), hr, hpre => by
      cases hr
      cases bytes with
      | nil => exact ⟨gs, List.suffix_rfl, rfl, fun _ => hpre⟩
      | cons b bytes =>
          refine ⟨gs, List.suffix_rfl, rfl, fun _ => ?_⟩
          show (reader.buf ++ b :: bytes) ++ more <+: _
          rw [List.append_assoc]
          exact hpre
  | .frames reader, _, .go, hr, hpre => by
      rcases FrameReader.nextFrame_wires hgs hpre with hn | ⟨g, gs', rest, rfl, -, hn, hrest⟩
      · simp only [Owner.resume, hn] at hr
        cases hr
        exact ⟨gs, List.suffix_rfl, rfl, fun _ => hpre⟩
      · simp only [Owner.resume, hn] at hr
        cases hr
        exact ⟨gs', List.suffix_cons _ _, rfl, fun _ => hrest⟩
  | .lookup reader f, _, .lookup, hr, hpre => by
      cases hr
      exact ⟨gs, List.suffix_rfl, rfl, fun _ => hpre⟩
  | .send _ _ (some _), _, .sent _, hr, hpre | .send _ _ (some _), _, .hungUp _, hr, hpre
  | .send _ _ none, _, .unrouted, hr, hpre => by
      cases hr
      exact ⟨gs, List.suffix_rfl, rfl, fun _ => hpre⟩

/-- The same for any step while the link is up. -/
theorem step_pump {eb : UInt32 → String → List UInt8} {s s' : State} {l : Label}
    (hgs : ∀ g ∈ gs, g.payload.length ≤ 0xFFFF) (hup : s.owner.up = true)
    (hs : step eb s l = some (s', es))
    (hpre : s.owner.undecoded ++ (bytesRead [l] ++ more) <+: gs.flatMap Frame.wire) :
    ∃ gs', gs' <:+ gs ∧ s.owner.decoded ++ gs = arrivals es ++ (s'.owner.decoded ++ gs') ∧
      (s'.owner.up = true → s'.owner.undecoded ++ more <+: gs'.flatMap Frame.wire) := by
  cases l with
  | tick ms =>
      cases hs
      exact ⟨gs, List.suffix_rfl, rfl, fun _ => hpre⟩
  | client i inp =>
      obtain ⟨s₁, t, hm, rfl⟩ := clientStep_moves hs
      refine ⟨gs, List.suffix_rfl, ?_, fun _ => ?_⟩
      · rw [hm.arrivals_nil]
        show _ = [] ++ (s₁.owner.decoded ++ gs)
        rw [hm.frame.2.1]
        rfl
      · show s₁.owner.undecoded ++ more <+: _
        rw [hm.frame.2.1]
        exact hpre
  | owner inp =>
      obtain ⟨a, s₁, o, hown, howned, hr, rfl⟩ := ownerStep_cases hs
      refine pump_moves hgs hup howned hr ?_
      rw [own_bytes hown]
      rwa [bytesRead, List.flatMap_singleton] at hpre

/-- **The pump loses nothing.**  While the link is up, the frames that arrive are those
that the device sends, in order, whatever the reads make of their bytes. -/
theorem run_pump {eb : UInt32 → String → List UInt8} : ∀ {ls : List Label} {s s' : State}
    {es : List Event} {gs : List Frame}, (∀ g ∈ gs, g.payload.length ≤ 0xFFFF) →
    (machine eb).Guarded LinkUp s ls → (machine eb).run s ls = some (s', es) →
    s.owner.undecoded ++ bytesRead ls <+: gs.flatMap Frame.wire →
    arrivals es <+: s.owner.decoded ++ gs
  | [], _, _, _, gs, _, _, hr, _ => by
      cases hr
      exact List.nil_prefix
  | l :: ls, s, _, _, gs, hgs, hup, hr, hpre => by
      obtain ⟨s₁, es₁, es₂, hs, hrest, rfl⟩ := Machine.run_cons hr
      obtain ⟨hup, hguard⟩ := hup
      rw [hs] at hguard
      have hbytes : bytesRead (l :: ls) = bytesRead [l] ++ bytesRead ls := by
        rw [bytesRead, List.flatMap_cons, bytesRead, List.flatMap_singleton]
        rfl
      rw [hbytes] at hpre
      obtain ⟨gs', hsuffix, heq, hpre'⟩ := step_pump hgs hup hs hpre
      rw [heq, arrivals, List.filterMap_append]
      refine (List.prefix_append_right_inj _).mpr ?_
      cases ls with
      | nil =>
          cases hrest
          exact List.nil_prefix
      | cons l' ls =>
          exact run_pump (fun g hg => hgs g (hsuffix.subset hg)) hguard hrest (hpre' hguard.1)

end Pump

end FlipLink.Daemon
