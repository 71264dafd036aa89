/-
# `FlipLink.Daemon.Routing` — the router as a map

`Router` under any sequence of its methods.  The events of a run are what there is to see
from outside: which seq a `register` returned and for whom, and to whom a frame was
handed.  The routes are a table that the events write to (`Lib.Writes`): a `register`
writes the sender at its seq, an `unregister` takes it away.  So a frame goes to the
sender of the last `register` that returned its seq, unless the seq has been unregistered
since (`router_as_map`).

The seqs that have been returned are `seqAt 0`, `seqAt 1` and so on whatever has been
unregistered in between (`Tracked.seqs`), which gives the rest: none is 0, and 65535 in a
row are different.
-/
import FlipLink.Daemon.Allocation
import FlipLink.Lib.Machine
import FlipLink.Lib.Writes

namespace FlipLink.Router

open Lib

/-- A call of a method that takes the lock. -/
inductive Method (σ : Type) where
  | call (op : Op σ)
  | setCaps (payload : List UInt8)

inductive Event (σ : Type) where
  /-- `register` returned this seq. -/
  | registered (seq : UInt16) (replyTo : σ)
  | unregistered (seq : UInt16)
  /-- `deliver` sent the frame here. -/
  | handed (frame : Frame) (replyTo : σ)

/-- What is seen of a method. -/
def seen {σ : Type} (r : Router σ) : Method σ → List (Event σ)
  | .call (.register replyTo) => [.registered (r.register replyTo).1 replyTo]
  | .call (.unregister seq) => [.unregistered seq]
  | .call (.deliver frame) => (r.lookup frame).toList.map (.handed frame)
  | .setCaps _ => []

/-- The router under its methods. -/
def machine (σ : Type) : Machine (Router σ) (Method σ) (Event σ) where
  step
    | r, .call op => some (r.call op, r.seen (.call op))
    | r, .setCaps payload => some (r.setCaps payload, r.seen (.setCaps payload))

variable {σ : Type}

/-- The seqs that `register` has returned, in order. -/
def seqs (es : List (Event σ)) : List UInt16 :=
  es.filterMap fun
    | .registered q _ => some q
    | _ => none

/-- What an event writes to the routes. -/
def Event.write : Event σ → Option (UInt16 × Option σ)
  | .registered q s => some (q, some s)
  | .unregistered q => some (q, none)
  | .handed _ _ => none

/-- The last `register` that returned `q` was for `s`, and `q` has not been unregistered
since. -/
def Owner (es : List (Event σ)) (q : UInt16) (s : σ) : Prop :=
  ∃ before after, es = before ++ .registered q s :: after ∧
    (∀ s', .registered q s' ∉ after) ∧ .unregistered q ∉ after

theorem seqs_append (es es' : List (Event σ)) : seqs (es ++ es') = seqs es ++ seqs es' :=
  List.filterMap_append ..

theorem mem_seqs {es : List (Event σ)} {q : UInt16} {s : σ} (h : .registered q s ∈ es) :
    q ∈ seqs es := List.mem_filterMap.mpr ⟨_, h, rfl⟩

/-- The owner of a seq is what the events have written there last. -/
theorem written_eq_some {es : List (Event σ)} {q : UInt16} {s : σ} :
    Writes.written (es.filterMap Event.write) q = some s ↔ Owner es q s := by
  rw [Writes.written_eq_some]
  constructor
  · rintro ⟨before, after, heq, hafter⟩
    obtain ⟨es₁, es₂, rfl, -, heq⟩ := List.filterMap_eq_append_iff.mp heq
    obtain ⟨es₃, e, es₄, rfl, -, he, rfl⟩ := List.filterMap_eq_cons_iff.mp heq
    obtain rfl : e = .registered q s := by
      cases e with
      | registered q' s' => cases he; rfl
      | unregistered q' | handed f s' => cases he
    refine ⟨es₁ ++ es₃, es₄, by rw [List.append_assoc], fun s' hs' => ?_, fun hq => ?_⟩
    · exact hafter _ (List.mem_filterMap.mpr ⟨_, hs', rfl⟩) rfl
    · exact hafter _ (List.mem_filterMap.mpr ⟨_, hq, rfl⟩) rfl
  · rintro ⟨before, after, rfl, hregistered, hunregistered⟩
    refine ⟨before.filterMap Event.write, after.filterMap Event.write, ?_, ?_⟩
    · rw [List.filterMap_append, List.filterMap_cons]
      rfl
    · rintro w hw rfl
      obtain ⟨e, he, hwrite⟩ := List.mem_filterMap.mp hw
      cases e with
      | registered q s' => cases hwrite; exact hregistered s' he
      | unregistered q => cases hwrite; exact hunregistered he
      | handed f s' => cases hwrite

/-! ## What a run keeps -/

/-- The counter and the routes follow from the events. -/
structure Tracked (r : Router σ) (es : List (Event σ)) : Prop where
  next : r.nextSeq = seqAt (seqs es).length
  seqs : seqs es = (List.range (seqs es).length).map seqAt
  routes : r.routes = Writes.written (es.filterMap Event.write)

theorem tracked_new : Tracked (new : Router σ) [] where
  next := rfl
  seqs := rfl
  routes := rfl

/-- Events that return no seq and write nothing. -/
theorem Tracked.still {r r' : Router σ} {es es' : List (Event σ)} (h : Tracked r es)
    (hnext : r'.nextSeq = r.nextSeq) (hroutes : r'.routes = r.routes)
    (hes : ∀ e ∈ es', ∃ f s, e = .handed f s) : Tracked r' (es ++ es') := by
  have hseqs : Router.seqs es' = [] := by
    rw [Router.seqs, List.filterMap_eq_nil_iff]
    intro e he
    obtain ⟨f, s, rfl⟩ := hes e he
    rfl
  have hwrites : es'.filterMap Event.write = [] := by
    rw [List.filterMap_eq_nil_iff]
    intro e he
    obtain ⟨f, s, rfl⟩ := hes e he
    rfl
  constructor
  · rw [hnext, h.next, seqs_append, hseqs, List.append_nil]
  · rw [seqs_append, hseqs, List.append_nil, ← h.seqs]
  · rw [hroutes, h.routes, List.filterMap_append, hwrites, List.append_nil]

theorem Tracked.step {r r' : Router σ} {es es' : List (Event σ)} {m : Method σ}
    (h : Tracked r es) (hs : (machine σ).step r m = some (r', es')) : Tracked r' (es ++ es') := by
  cases m with
  | setCaps payload =>
      cases hs
      exact h.still rfl rfl fun e he => absurd he List.not_mem_nil
  | call op =>
      cases op with
      | deliver f =>
          cases hs
          refine h.still rfl rfl fun e he => ?_
          obtain ⟨s, -, rfl⟩ := List.mem_map.mp he
          exact ⟨f, s, rfl⟩
      | unregister q =>
          cases hs
          show Tracked (r.unregister q) (es ++ [.unregistered q])
          have hseqs : Router.seqs [(.unregistered q : Event σ)] = [] := rfl
          constructor
          · rw [seqs_append, hseqs, List.append_nil]
            exact h.next
          · rw [seqs_append, hseqs, List.append_nil, ← h.seqs]
          · rw [List.filterMap_append]
            show Function.update r.routes q none = _
            rw [h.routes, ← Writes.written_concat _ (q, none)]
            rfl
      | register s =>
          cases hs
          show Tracked (r.register s).2 (es ++ [.registered r.nextSeq s])
          have hlen : (Router.seqs (es ++ [.registered r.nextSeq s])).length
              = (Router.seqs es).length + 1 := by
            rw [seqs_append, List.length_append]
            rfl
          constructor
          · show max (r.nextSeq + 1) 1 = _
            rw [hlen, h.next, seqAt_succ]
          · rw [hlen, seqs_append, List.range_succ, List.map_append, ← h.seqs,
              List.map_singleton, ← h.next]
            rfl
          · rw [List.filterMap_append]
            show Function.update r.routes r.nextSeq (some s) = _
            rw [h.routes, ← Writes.written_concat _ (r.nextSeq, some s)]
            rfl

theorem run_tracked {ms : List (Method σ)} {r : Router σ} {es : List (Event σ)}
    (hrun : (machine σ).run new ms = some (r, es)) : Tracked r es :=
  Machine.run_events (fun h hs => h.step hs) tracked_new hrun

/-! ## The map -/

section Map

variable {r : Router σ} {es : List (Event σ)}

theorem Tracked.nextSeq_ne_zero (h : Tracked r es) : r.nextSeq ≠ 0 := by
  rw [h.next]
  exact seqAt_ne_zero _

/-- A frame's route is to the owner of its seq. -/
theorem Tracked.routes_iff (h : Tracked r es) {q : UInt16} {s : σ} :
    r.routes q = some s ↔ Owner es q s := by
  rw [h.routes, written_eq_some]

/-- The seq of the handshake's HELLO is nobody's. -/
theorem Tracked.routes_zero (h : Tracked r es) : r.routes 0 = none := by
  by_contra hne
  obtain ⟨s, hs⟩ := Option.ne_none_iff_exists'.mp hne
  obtain ⟨before, after, rfl, -⟩ := h.routes_iff.mp hs
  have hmem : 0 ∈ Router.seqs (before ++ .registered 0 s :: after) :=
    mem_seqs (List.mem_append_right before List.mem_cons_self)
  rw [h.seqs] at hmem
  obtain ⟨n, -, hn⟩ := List.mem_map.mp hmem
  exact seqAt_ne_zero n hn

/-- The counter takes 65535 registrations to come round. -/
theorem Tracked.window_nodup (h : Tracked r es) (i : Nat) :
    (((Router.seqs es).drop i).take 65535).Nodup := by
  rw [h.seqs, List.Nodup, List.pairwise_iff_getElem]
  intro j k hj hk hlt heq
  rw [List.length_take] at hk
  simp only [List.getElem_take, List.getElem_drop, List.getElem_map, List.getElem_range] at heq
  rw [seqAt_eq_iff] at heq
  omega

end Map

/-- **The router is a map.**  After any methods of a new router: the next seq is not 0 and
seq 0 has no route; any 65535 seqs that `register` returned one after the other are
different; and a `deliver` leaves the router as it is and hands the frame to the owner of
its seq, if it has one, and to nobody else. -/
theorem router_as_map {ms : List (Method σ)} {r : Router σ} {es : List (Event σ)}
    (hrun : (machine σ).run new ms = some (r, es)) :
    (r.nextSeq ≠ 0 ∧ r.routes 0 = none) ∧
    (∀ i, (((seqs es).drop i).take 65535).Nodup) ∧
    ∀ frame : Frame, ∃ es', (machine σ).step r (.call (.deliver frame)) = some (r, es') ∧
      (∀ s, es' = [.handed frame s] ↔ Owner es frame.seq s) ∧
      ((∀ s, ¬ Owner es frame.seq s) → es' = []) := by
  have h := run_tracked hrun
  refine ⟨⟨h.nextSeq_ne_zero, h.routes_zero⟩, h.window_nodup, fun frame => ⟨_, rfl, ?_, ?_⟩⟩
  · intro s
    rw [← h.routes_iff, seen, lookup]
    cases r.routes frame.seq with
    | none => exact ⟨fun hs => (by cases hs), fun hs => (by cases hs)⟩
    | some s' =>
        refine ⟨fun hs => ?_, fun hs => ?_⟩
        · cases hs
          rfl
        · cases hs
          rfl
  · intro hnone
    have hroute : r.routes frame.seq = none := by
      by_contra hne
      obtain ⟨s, hs⟩ := Option.ne_none_iff_exists'.mp hne
      exact hnone s (h.routes_iff.mp hs)
    rw [seen, lookup, hroute]
    rfl

/-- Two registrations; the first is over when a frame comes for the second. -/
theorem router_as_map_two :
    let frame : Frame := { typ := .resp, flags := 0, seq := 2, payload := [] }
    let es : List (Event Nat) := [.registered 1 7, .registered 2 8, .unregistered 1]
    ∃ r, (machine Nat).run new
        [.call (.register 7), .call (.register 8), .setCaps [1], .call (.unregister 1)]
        = some (r, es) ∧
      r.nextSeq ≠ 0 ∧ Owner es 2 8 ∧
      (machine Nat).step r (.call (.deliver frame)) = some (r, [.handed frame 8]) := by
  intro frame es
  have howner : Owner es 2 8 := by
    refine ⟨[.registered 1 7], [.unregistered 1], rfl, fun s hs => ?_, fun hq => ?_⟩
    · cases List.mem_singleton.mp hs
    · cases List.mem_singleton.mp hq
  have hrun : (machine Nat).run new
      [.call (.register 7), .call (.register 8), .setCaps [1], .call (.unregister 1)]
      = some (((((new.register 7).2.register 8).2).setCaps [1]).unregister 1, es) := rfl
  obtain ⟨es', hstep, hiff, -⟩ := (router_as_map hrun).2.2 frame
  rw [(hiff 8).mpr howner] at hstep
  exact ⟨_, hrun, (router_as_map hrun).1.1, howner, hstep⟩

end FlipLink.Router
