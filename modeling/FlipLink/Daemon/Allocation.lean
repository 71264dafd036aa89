/-
# `FlipLink.Daemon.Allocation` — which seqs the router hands out

Any sequence of `register`, `unregister` and `deliver` on a new router.  The
counter goes round 1 … 65535, so the `n`-th registration gets `seqAt n`, never
zero, whatever has been unregistered; and a seq is a key of the routes exactly if
one of its registrations has not been followed by its `unregister` (`Live`).

`register` promises a unique seq and does not look at the routes.  The seq it
will hand out next is free exactly if the registration that got it last, 65535
registrations before, has been unregistered since (`next_free_iff`).  A stream
that stays open through 65534 requests of other clients is replaced by the next
one (`next_not_free`).
-/
import FlipLink.Daemon.Router
import Mathlib.Data.List.Induction

namespace FlipLink.Router

variable {σ : Type}

/-! ## Calls -/

/-- A call of a method. -/
inductive Op (σ : Type) where
  | register (replyTo : σ)
  | unregister (seq : UInt16)
  | deliver (frame : Frame)

/-- The router after a call. -/
def call (r : Router σ) : Op σ → Router σ
  | .register replyTo => (r.register replyTo).2
  | .unregister seq => r.unregister seq
  -- `deliver` reads the routes only
  | .deliver _ => r

/-- The router after these calls on a new one. -/
def reached (ops : List (Op σ)) : Router σ := ops.foldl call new

theorem reached_concat (ops : List (Op σ)) (op : Op σ) :
    reached (ops ++ [op]) = (reached ops).call op := by
  rw [reached, List.foldl_append]
  rfl

/-- How many of the calls are registrations. -/
def registers : List (Op σ) → Nat
  | [] => 0
  | .register _ :: ops => registers ops + 1
  | .unregister _ :: ops | .deliver _ :: ops => registers ops

theorem registers_append : ∀ ops ops' : List (Op σ),
    registers (ops ++ ops') = registers ops + registers ops'
  | [], _ => (Nat.zero_add _).symm
  | .register _ :: ops, ops' => by
      show registers (ops ++ ops') + 1 = registers ops + 1 + registers ops'
      rw [registers_append ops ops', Nat.add_right_comm]
  | .unregister _ :: ops, ops' | .deliver _ :: ops, ops' => registers_append ops ops'

/-- A registration with a given number of registrations behind it. -/
theorem exists_register : ∀ {ops : List (Op σ)} {k : Nat}, k < registers ops →
    ∃ before s after, ops = before ++ .register s :: after ∧ registers after = k
  | .register s :: ops, k, h => by
      rcases Nat.lt_succ_iff_lt_or_eq.mp h with hlt | rfl
      · obtain ⟨before, s', after, rfl, hk⟩ := exists_register hlt
        exact ⟨.register s :: before, s', after, rfl, hk⟩
      · exact ⟨[], s, ops, rfl, rfl⟩
  | .unregister q :: ops, k, h => by
      obtain ⟨before, s', after, rfl, hk⟩ := @exists_register ops k h
      exact ⟨.unregister q :: before, s', after, rfl, hk⟩
  | .deliver f :: ops, k, h => by
      obtain ⟨before, s', after, rfl, hk⟩ := @exists_register ops k h
      exact ⟨.deliver f :: before, s', after, rfl, hk⟩

/-! ## The counter -/

/-- The seq of the `n`-th registration. -/
def seqAt (n : Nat) : UInt16 := UInt16.ofNat (n % 65535 + 1)

theorem seqAt_toNat (n : Nat) : (seqAt n).toNat = n % 65535 + 1 := by
  have := Nat.mod_lt n (by decide : 65535 > 0)
  rw [seqAt, UInt16.toNat_ofNat']
  omega

theorem seqAt_ne_zero (n : Nat) : seqAt n ≠ 0 := by
  intro h
  have := congrArg UInt16.toNat h
  rw [seqAt_toNat] at this
  exact absurd this (Nat.succ_ne_zero _)

theorem seqAt_eq_iff {n m : Nat} : seqAt n = seqAt m ↔ n % 65535 = m % 65535 := by
  rw [← UInt16.toNat_inj, seqAt_toNat, seqAt_toNat, Nat.add_right_cancel_iff]

/-- `wrapping_add(1).max(1)` goes to the next seq. -/
theorem seqAt_succ (n : Nat) : max (seqAt n + 1) 1 = seqAt (n + 1) := by
  have hlt := Nat.mod_lt n (by decide : 65535 > 0)
  have hn := seqAt_toNat n
  have hadd : (seqAt n + 1).toNat = (n % 65535 + 2) % 65536 := by
    rw [UInt16.toNat_add, hn]
    rfl
  apply UInt16.toNat_inj.mp
  show (if seqAt n + 1 ≤ 1 then 1 else seqAt n + 1).toNat = _
  rw [seqAt_toNat]
  split_ifs with hle
  · rw [UInt16.le_iff_toNat_le, hadd] at hle
    have : (1 : UInt16).toNat = 1 := rfl
    have hwrap : n % 65535 = 65534 := by omega
    omega
  · rw [UInt16.le_iff_toNat_le, hadd] at hle
    have : (1 : UInt16).toNat = 1 := rfl
    have hwrap : n % 65535 ≠ 65534 := by
      intro heq
      rw [heq] at hle
      exact hle (by decide)
    rw [hadd]
    omega

theorem reached_nextSeq (ops : List (Op σ)) : (reached ops).nextSeq = seqAt (registers ops) := by
  induction ops using List.reverseRecOn with
  | nil => rfl
  | append_singleton ops op ih =>
      rw [reached_concat, registers_append]
      cases op with
      | register s =>
          show max ((reached ops).nextSeq + 1) 1 = _
          rw [ih, seqAt_succ]
          rfl
      | unregister q => exact ih
      | deliver f => exact ih

/-! ## Live routes -/

/-- One of the seq's registrations has not been followed by its `unregister`. -/
def Live (ops : List (Op σ)) (q : UInt16) : Prop :=
  ∃ before s mid, ops = before ++ .register s :: mid ∧ seqAt (registers before) = q ∧
    .unregister q ∉ mid

theorem Live.concat {ops : List (Op σ)} {q : UInt16} (h : Live ops q) {op : Op σ}
    (hop : op ≠ .unregister q) : Live (ops ++ [op]) q := by
  obtain ⟨before, s, mid, rfl, hq, hmid⟩ := h
  refine ⟨before, s, mid ++ [op], by rw [List.append_assoc, List.cons_append], hq, ?_⟩
  rw [List.mem_append, List.mem_singleton, not_or]
  exact ⟨hmid, Ne.symm hop⟩

/-- A live route outlives a call, or was made by it. -/
theorem live_concat {ops : List (Op σ)} {op : Op σ} {q : UInt16} (h : Live (ops ++ [op]) q) :
    (Live ops q ∧ op ≠ .unregister q) ∨ ((∃ s, op = .register s) ∧ seqAt (registers ops) = q) := by
  obtain ⟨before, s, mid, heq, hq, hmid⟩ := h
  rcases List.eq_nil_or_concat mid with rfl | ⟨mid, op', rfl⟩
  · obtain ⟨rfl, hop⟩ := List.append_inj' heq rfl
    exact .inr ⟨⟨s, List.head_eq_of_cons_eq hop⟩, hq⟩
  · rw [List.concat_eq_append] at heq hmid
    rw [← List.cons_append, ← List.append_assoc] at heq
    obtain ⟨rfl, hop⟩ := List.append_inj' heq rfl
    obtain rfl := List.head_eq_of_cons_eq hop
    rw [List.mem_append, List.mem_singleton, not_or] at hmid
    exact .inl ⟨⟨before, s, mid, rfl, hq, hmid.1⟩, Ne.symm hmid.2⟩

/-- The keys of the routes are the live seqs. -/
theorem reached_routes (ops : List (Op σ)) (q : UInt16) :
    (reached ops).routes q ≠ none ↔ Live ops q := by
  induction ops using List.reverseRecOn with
  | nil =>
      refine ⟨fun h => absurd rfl h, fun ⟨_, _, _, h, _⟩ => ?_⟩
      exact absurd h.symm (List.append_ne_nil_of_right_ne_nil _ (List.cons_ne_nil _ _))
  | append_singleton ops op ih =>
      rw [reached_concat]
      cases op with
      | register s =>
          show ((reached ops).register s).2.routes q ≠ none ↔ _
          by_cases hq : q = (reached ops).nextSeq
          · subst hq
            rw [register_self]
            refine ⟨fun _ => ⟨ops, s, [], rfl, (reached_nextSeq ops).symm, List.not_mem_nil⟩,
              fun _ => nofun⟩
          · rw [register_of_ne _ _ hq, ih]
            refine ⟨fun h => h.concat nofun, fun h => ?_⟩
            rcases live_concat h with ⟨h, -⟩ | ⟨-, h⟩
            · exact h
            · exact absurd (h.symm.trans (reached_nextSeq ops).symm) hq
      | unregister q' =>
          show ((reached ops).unregister q').routes q ≠ none ↔ _
          by_cases hq : q = q'
          · subst hq
            rw [unregister_self]
            refine ⟨fun h => absurd rfl h, fun h => ?_⟩
            rcases live_concat h with ⟨-, h⟩ | ⟨⟨_, h⟩, -⟩
            · exact absurd rfl h
            · exact nomatch h
          · rw [unregister_of_ne _ _ hq, ih]
            refine ⟨fun h => h.concat fun he => hq (Op.unregister.inj he).symm, fun h => ?_⟩
            rcases live_concat h with ⟨h, -⟩ | ⟨⟨_, h⟩, -⟩
            · exact h
            · exact nomatch h
      | deliver f =>
          show (reached ops).routes q ≠ none ↔ _
          rw [ih]
          refine ⟨fun h => h.concat nofun, fun h => ?_⟩
          rcases live_concat h with ⟨h, -⟩ | ⟨⟨_, h⟩, -⟩
          · exact h
          · exact nomatch h

/-! ## The next seq -/

/-- The registration 65535 registrations before the next one, if there is one,
has been unregistered since. -/
def Recycled (ops : List (Op σ)) : Prop :=
  ∀ before s mid, ops = before ++ .register s :: mid → registers mid = 65534 →
    .unregister (seqAt (registers before)) ∈ mid

theorem recycled_iff (ops : List (Op σ)) : Recycled ops ↔ ¬ Live ops (seqAt (registers ops)) := by
  constructor
  · rintro h ⟨before, s, mid, rfl, hq, hmid⟩
    rw [registers_append] at hq hmid
    rw [registers] at hq hmid
    rw [seqAt_eq_iff] at hq
    -- the last of its registrations is 65534 registrations from the end
    rcases Nat.lt_or_ge 65534 (registers mid) with hlt | hge
    · obtain ⟨mid₁, s', mid₂, rfl, hk⟩ := exists_register hlt
      have hsplit : before ++ Op.register s :: (mid₁ ++ .register s' :: mid₂)
          = (before ++ .register s :: mid₁) ++ .register s' :: mid₂ := by
        rw [List.append_assoc, List.cons_append]
      have hun := h _ s' mid₂ hsplit hk
      have hseq : seqAt (registers (before ++ Op.register s :: mid₁))
          = seqAt (registers before + (registers (mid₁ ++ .register s' :: mid₂) + 1)) := by
        rw [registers_append, registers_append, registers, registers, hk, seqAt_eq_iff]
        omega
      rw [hseq] at hun
      exact hmid (List.mem_append_right _ (List.mem_cons_of_mem _ hun))
    · have hk : registers mid = 65534 := by omega
      have hseq : seqAt (registers before) = seqAt (registers before + (registers mid + 1)) := by
        rw [seqAt_eq_iff, hq]
      have hun := h before s mid rfl hk
      rw [hseq] at hun
      exact hmid hun
  · intro h before s mid hops hk
    by_contra hun
    refine h ⟨before, s, mid, hops, ?_, ?_⟩
    · rw [hops, registers_append, registers, hk, seqAt_eq_iff]
      omega
    · have hseq : seqAt (registers ops) = seqAt (registers before) := by
        rw [hops, registers_append, registers, hk, seqAt_eq_iff]
        omega
      rwa [hseq]

/-- **Seqs are unique while they are recycled.**  In every state that calls on a
new router can reach, the seq that `register` hands out next is not zero; and it
is not already a key of the routes exactly if the registration 65535
registrations before it has been unregistered since. -/
theorem next_free_iff (ops : List (Op σ)) (replyTo : σ) :
    (((reached ops).register replyTo).1 ≠ 0 ∧
        (reached ops).routes ((reached ops).register replyTo).1 = none) ↔
      Recycled ops := by
  rw [register_fst, recycled_iff, ← reached_routes, not_not, reached_nextSeq]
  exact and_iff_right (seqAt_ne_zero _)

/-! ## A stream that is replaced -/

/-- A request that comes and goes, `n` times. -/
def passing : Nat → List (Op Nat)
  | 0 => []
  | n + 1 => passing n ++ [.register 1, .unregister (seqAt (n + 1))]

theorem registers_passing : ∀ n, registers (passing n) = n
  | 0 => rfl
  | n + 1 => by
      rw [passing, registers_append, registers_passing n]
      rfl

theorem not_mem_passing : ∀ {n : Nat}, n ≤ 65534 → .unregister (seqAt 0) ∉ passing n
  | 0, _, h => nomatch h
  | n + 1, hn, h => by
      rcases List.mem_append.mp h with h | h
      · exact not_mem_passing (Nat.le_of_succ_le hn) h
      · obtain h | h := List.mem_cons.mp h
        · exact nomatch h
        · have := seqAt_eq_iff.mp (Op.unregister.inj (List.mem_singleton.mp h))
          omega

/-- It is not so that `register` never hands out the seq of a live route: client
0 has a stream open while client 1 makes 65534 requests. -/
theorem next_not_free :
    ¬ ∀ (ops : List (Op Nat)) (replyTo : Nat),
      ((reached ops).register replyTo).1 ≠ 0 ∧
        (reached ops).routes ((reached ops).register replyTo).1 = none := by
  intro h
  have hlive : Live (.register 0 :: passing 65534) (seqAt 0) :=
    ⟨[], 0, passing 65534, rfl, rfl, not_mem_passing (Nat.le_refl _)⟩
  have hnext : seqAt (registers (.register 0 :: passing 65534)) = seqAt 0 := by
    rw [registers, registers_passing, seqAt_eq_iff]
  have hfree := (h (.register 0 :: passing 65534) 1).2
  rw [register_fst, reached_nextSeq, hnext] at hfree
  exact (reached_routes _ _).mpr hlive hfree

end FlipLink.Router
