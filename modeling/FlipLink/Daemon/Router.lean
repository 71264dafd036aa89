/-
# `FlipLink.Daemon.Router` — seq allocation and routing

`Router` of `router.rs`: the next device seq, the routing table and the cached
CAPS.  Every method takes the lock once and is one step, but for `deliver`,
which looks the sender up under the lock and sends after releasing it; `lookup`
is the part under the lock.  The sender is a parameter, and the table is the
function that `HashMap::get` computes.
-/
import FlipLink.Proto.Frame
import Mathlib.Logic.Function.Basic

namespace FlipLink

/-- Shared daemon state. -/
structure Router (σ : Type) where
  nextSeq : UInt16
  routes : UInt16 → Option σ
  /-- Cached CAPS body (empty until first connect). -/
  capsPayload : List UInt8

namespace Router

variable {σ : Type}

def new : Router σ := { nextSeq := 1, routes := fun _ => none, capsPayload := [] }

/-- Allocate a unique device-side seq and register where its reply should go. -/
def register (r : Router σ) (replyTo : σ) : UInt16 × Router σ :=
  (r.nextSeq,
    { r with
      nextSeq := max (r.nextSeq + 1) 1
      routes := Function.update r.routes r.nextSeq (some replyTo) })

/-- Drop a pending route. -/
def unregister (r : Router σ) (seq : UInt16) : Router σ :=
  { r with routes := Function.update r.routes seq none }

/-- The sender that `deliver` finds for a frame, under the lock. -/
def lookup (r : Router σ) (frame : Frame) : Option σ := r.routes frame.seq

def setCaps (r : Router σ) (payload : List UInt8) : Router σ := { r with capsPayload := payload }

def caps (r : Router σ) : List UInt8 := r.capsPayload

section Routes

variable (r : Router σ) (s : σ) (seq : UInt16)

@[simp] theorem register_fst : (r.register s).1 = r.nextSeq := rfl

theorem register_self : (r.register s).2.routes r.nextSeq = some s := Function.update_self ..

theorem register_of_ne {seq : UInt16} (h : seq ≠ r.nextSeq) :
    (r.register s).2.routes seq = r.routes seq := Function.update_of_ne h ..

theorem unregister_self : (r.unregister seq).routes seq = none := Function.update_self ..

theorem unregister_of_ne {q : UInt16} (h : q ≠ seq) :
    (r.unregister seq).routes q = r.routes q := Function.update_of_ne h ..

/-- What is still routed after an `unregister` was routed before, elsewhere. -/
theorem unregister_some {q : UInt16} (h : (r.unregister seq).routes q = some s) :
    q ≠ seq ∧ r.routes q = some s := by
  by_cases hq : q = seq
  · rw [hq, unregister_self] at h
    exact nomatch h
  · exact ⟨hq, by rwa [unregister_of_ne r seq hq] at h⟩

/-- What is routed after a `register` is the new route or was routed before. -/
theorem register_some {q : UInt16} {s' : σ} (h : (r.register s).2.routes q = some s') :
    (q = r.nextSeq ∧ s' = s) ∨ (q ≠ r.nextSeq ∧ r.routes q = some s') := by
  by_cases hq : q = r.nextSeq
  · rw [hq, register_self] at h
    exact .inl ⟨hq, (Option.some.inj h).symm⟩
  · exact .inr ⟨hq, by rwa [register_of_ne r s hq] at h⟩

@[simp] theorem setCaps_routes (payload : List UInt8) : (r.setCaps payload).routes = r.routes := rfl

end Routes

end Router

end FlipLink
