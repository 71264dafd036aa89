/-
# `FlipLink.Proto.Effort` — what a value costs to read

A head announces up to `2 ^ 64 - 1` elements and costs no more than nine bytes.
`decode` does not believe it: it reads one element after the other, every element
costs a byte, and the first that is not there ends the loop.  So the work is bounded
by the input whatever is announced.

The work is counted in calls of the library, which `decodeCalls` lists in order, each
with the input that it finds unread.  `Spent` says of a read what it has cost and what it
was spent on, and there is a rule for each way of putting reads together.  From these
follow one lemma a loop and the bound for `decode` (`decodeN_spent`, by induction on the
nesting): no more than three calls a byte, and two; no more nodes than bytes; every
number read where the library announced it.

Of the library nothing is used but that a primitive that succeeds has read a byte, and
that a signed type is announced of negative numbers only.
-/
import FlipLink.Proto.ValueCodec

namespace FlipLink

open Lib

/-! ## The library's calls -/

/-- What `Value::decode` calls. -/
inductive Primitive where
  | datatype | null | bool | u64 | i64 | str | bytes | array | map | skip
  deriving DecidableEq, Repr

/-- A call, and what was unread then. -/
abbrev PrimitiveCall := Primitive × List UInt8

/-- The four unsigned types. -/
def CborType.unsigned : CborType → Bool
  | .u8 | .u16 | .u32 | .u64 => true
  | _ => false

/-- What the bound on the work relies on. -/
structure Minicbor.Consuming {ε : Type} (cb : Minicbor ε) : Prop where
  null_lt : ∀ {d rest}, cb.null d = .ok rest → rest.length < d.length
  bool_lt : ∀ {d b rest}, cb.bool d = .ok (b, rest) → rest.length < d.length
  u64_lt : ∀ {d n rest}, cb.u64 d = .ok (n, rest) → rest.length < d.length
  i64_lt : ∀ {d n rest}, cb.i64 d = .ok (n, rest) → rest.length < d.length
  str_lt : ∀ {d s rest}, cb.str d = .ok (s, rest) → rest.length < d.length
  bytes_lt : ∀ {d b rest}, cb.bytes d = .ok (b, rest) → rest.length < d.length
  array_lt : ∀ {d n rest}, cb.array d = .ok (n, rest) → rest.length < d.length
  map_lt : ∀ {d n rest}, cb.map d = .ok (n, rest) → rest.length < d.length
  skip_lt : ∀ {d rest}, cb.skip d = .ok rest → rest.length < d.length
  i64_neg : ∀ {d t n rest}, cb.datatype d = .ok t → t.signed = true →
    cb.i64 d = .ok (n, rest) → n.toInt < 0

theorem Minicbor.Lawful.consuming {ε : Type} {cb : Minicbor ε} (h : cb.Lawful) : cb.Consuming where
  null_lt := h.null_lt
  bool_lt := h.bool_lt
  u64_lt := h.u64_lt
  i64_lt := h.i64_lt
  str_lt hs := Nat.lt_of_le_of_lt (Nat.le_add_left _ _) (h.str_lt hs)
  bytes_lt hb := Nat.lt_of_le_of_lt (Nat.le_add_left _ _) (h.bytes_lt hb)
  array_lt := h.array_lt
  map_lt := h.map_lt
  skip_lt := h.skip_lt
  i64_neg := h.i64_neg

namespace Value

section Calls

/-- What is called behind a read, if it succeeds. -/
def behind {ε α : Type} : Except ε (α × List UInt8) → (α → List UInt8 → List PrimitiveCall) →
    List PrimitiveCall
  | .ok (x, d), calls => calls x d
  | .error _, _ => []

variable {ε α : Type} (cb : Minicbor ε)

/-- The calls of `times`, where `calls` are those of an element. -/
def timesCalls (item : Reader ε α) (calls : List UInt8 → List PrimitiveCall) :
    Nat → List UInt8 → List PrimitiveCall
  | 0, _ => []
  | n + 1, d => calls d ++ behind (item d) fun _ d => timesCalls item calls n d

/-- The calls of `untilBreak`. -/
def untilBreakCalls (item : Reader ε α) (calls : List UInt8 → List PrimitiveCall) :
    Nat → List UInt8 → List PrimitiveCall
  | 0, _ => []
  | k + 1, d =>
      (.datatype, d) ::
        match cb.datatype d with
        | .ok t =>
            if t = .break then [(.skip, d)]
            else calls d ++ behind (item d) fun _ d => untilBreakCalls item calls k d
        | .error _ => []

def itemsCalls (item : Reader ε α) (calls : List UInt8 → List PrimitiveCall) :
    Option UInt64 → List UInt8 → List PrimitiveCall
  | some n, d => timesCalls item calls n.toNat d
  | none, d => untilBreakCalls cb item calls (d.length + 1) d

def entryCalls (calls : List UInt8 → List PrimitiveCall) (d : List UInt8) : List PrimitiveCall :=
  (.str, d) :: behind (cb.str d) fun _ d => calls d

/-- The calls of `decodeN`. -/
def decodeCallsN : Nat → List UInt8 → List PrimitiveCall
  | 0, _ => []
  | k + 1, d =>
      (.datatype, d) ::
        match cb.datatype d with
        | .ok .null => [(.null, d)]
        | .ok .bool => [(.bool, d)]
        | .ok .u8 | .ok .u16 | .ok .u32 | .ok .u64 => [(.u64, d)]
        | .ok .i8 | .ok .i16 | .ok .i32 | .ok .i64 => [(.i64, d)]
        | .ok .string => [(.str, d)]
        | .ok .bytes => [(.bytes, d)]
        | .ok .array | .ok .arrayIndef =>
            (.array, d) ::
              behind (cb.array d) fun len d =>
                itemsCalls cb (decodeN cb k) (decodeCallsN k) len d
        | .ok .map | .ok .mapIndef =>
            (.map, d) ::
              behind (cb.map d) fun len d =>
                itemsCalls cb (entry cb (decodeN cb k)) (entryCalls cb (decodeCallsN k)) len d
        | _ => []

/-- The calls of `decode`. -/
def decodeCalls (d : List UInt8) : List PrimitiveCall := decodeCallsN cb (d.length + 1) d

end Calls

/-! ## Nodes and numbers -/

mutual

/-- The nodes of a value: its scalars, its containers and its map keys. -/
def nodes : Value → Nat
  | .array a => nodesItems a + 1
  | .map m => nodesEntries m + 1
  | _ => 1

def nodesItems : List Value → Nat
  | [] => 0
  | v :: a => nodes v + nodesItems a

def nodesEntries : List (String × Value) → Nat
  | [] => 0
  | (_, v) :: m => nodes v + 1 + nodesEntries m

end

mutual

/-- The numbers in a value. -/
def numbers : Value → List Value
  | .u64 n => [.u64 n]
  | .i64 n => [.i64 n]
  | .array a => numbersItems a
  | .map m => numbersEntries m
  | _ => []

def numbersItems : List Value → List Value
  | [] => []
  | v :: a => numbers v ++ numbersItems a

def numbersEntries : List (String × Value) → List Value
  | [] => []
  | (_, v) :: m => numbers v ++ numbersEntries m

end

theorem nodesItems_eq (a : List Value) : nodesItems a = (a.map nodes).sum := by
  induction a with
  | nil => rfl
  | cons v a ih => rw [nodesItems, ih, List.map_cons, List.sum_cons]

theorem nodesEntries_eq (m : List (String × Value)) :
    nodesEntries m = (m.map fun kv => nodes kv.2 + 1).sum := by
  induction m with
  | nil => rfl
  | cons kv m ih =>
      obtain ⟨k, v⟩ := kv
      rw [nodesEntries, ih, List.map_cons, List.sum_cons]

theorem mem_numbersItems {x : Value} : ∀ {a : List Value},
    x ∈ numbersItems a → ∃ v ∈ a, x ∈ numbers v
  | [], h => nomatch h
  | v :: a, h => by
      rw [numbersItems] at h
      rcases List.mem_append.mp h with h | h
      · exact ⟨v, List.mem_cons_self, h⟩
      · obtain ⟨w, hw, hx⟩ := mem_numbersItems h
        exact ⟨w, List.mem_cons_of_mem v hw, hx⟩

theorem mem_numbersEntries {x : Value} : ∀ {m : List (String × Value)},
    x ∈ numbersEntries m → ∃ kv ∈ m, x ∈ numbers kv.2
  | [], h => nomatch h
  | (k, v) :: m, h => by
      rw [numbersEntries] at h
      rcases List.mem_append.mp h with h | h
      · exact ⟨(k, v), List.mem_cons_self, h⟩
      · obtain ⟨kv, hkv, hx⟩ := mem_numbersEntries h
        exact ⟨kv, List.mem_cons_of_mem _ hkv, hx⟩

/-- The number `x` was read where the library announced a number of its kind: `u64` an
unsigned item, `i64` a negative one. -/
def ReadAs {ε : Type} (cb : Minicbor ε) (calls : List PrimitiveCall) : Value → Prop
  | .u64 n => ∃ d t r, (.u64, d) ∈ calls ∧ cb.datatype d = .ok t ∧ t.unsigned = true ∧
      cb.u64 d = .ok (n, r)
  | .i64 n => n.toInt < 0 ∧ ∃ d t r, (.i64, d) ∈ calls ∧ cb.datatype d = .ok t ∧
      t.signed = true ∧ cb.i64 d = .ok (n, r)
  | _ => False

variable {ε α β : Type} {cb : Minicbor ε}

/-! ## What is spent -/

theorem call_ne_depth {x : Except ε α} : call x ≠ .error .depth := by
  intro h
  cases x with
  | error e => cases Except.error.inj h
  | ok a => cases h

theorem arm_ne_depth {x : Except ε α} {f : α → β × List UInt8} :
    (call x >>= fun p => Except.ok (f p)) ≠ .error .depth := by
  intro h
  cases x with
  | error e => cases Except.error.inj h
  | ok a => cases h

/-- What a reader leaves for those behind it to spend. -/
def left : Except (Stop ε) (α × List UInt8) → Nat
  | .ok (_, r) => 3 * r.length + 3
  | .error _ => 0

/-- A read at `d` with this result made these calls: no more than three a byte, and `c`;
no bound of the model was hit, if `d` is shorter than `N`; and what was read is as `Q`
says, if the calls are among `C`. -/
structure Spent (c N : Nat) (C : List PrimitiveCall) (d : List UInt8)
    (result : Except (Stop ε) (α × List UInt8)) (calls : List PrimitiveCall)
    (Q : α → List UInt8 → Prop) : Prop where
  work : calls.length + left result ≤ 3 * d.length + c
  total : d.length < N → result ≠ .error .depth
  post : calls ⊆ C → ∀ x r, result = .ok (x, r) → Q x r

namespace Spent

variable {c N : Nat} {C calls : List PrimitiveCall} {d r : List UInt8} {a : α}
  {Q : α → List UInt8 → Prop} {Q' : α → List UInt8 → β → List UInt8 → Prop}
  {R' : β → List UInt8 → Prop}
  {result : Except (Stop ε) (α × List UInt8)}

theorem mono {c' : Nat} (h : Spent c N C d result calls Q) (hc : c ≤ c') :
    Spent c' N C d result calls Q :=
  ⟨Nat.le_trans h.work (Nat.add_le_add_left hc _), h.total, h.post⟩

/-- What is read has cost a byte. -/
theorem shorter (h : Spent c N C d result calls Q) (hc : c ≤ 2) (hr : result = .ok (a, r)) :
    r.length < d.length := by
  have hwork := h.work
  rw [hr, left] at hwork
  omega

/-- One more call. -/
theorem tick {p : PrimitiveCall} (h : Spent c N C d result calls Q) :
    Spent (c + 1) N C d result (p :: calls) Q where
  work := by
    have hwork := h.work
    rw [List.length_cons]
    omega
  total := h.total
  post hcalls := h.post (fun x hx => hcalls (List.mem_cons_of_mem _ hx))

/-- One read behind another. -/
theorem bind {N' : Nat} {next : α → List UInt8 → Except (Stop ε) (β × List UInt8)}
    {calls' : α → List UInt8 → List PrimitiveCall} (h : Spent c N C d result calls Q) (hc : c ≤ 2)
    (hN : N ≤ N' + 1)
    (h' : ∀ a r, result = .ok (a, r) → Spent 3 N' C r (next a r) (calls' a r) (Q' a r))
    (hpost : ∀ a r b r', Q a r → Q' a r b r' → R' b r') :
    Spent c N C d (result >>= fun p => next p.1 p.2) (calls ++ behind result calls') R' := by
  cases hr : result with
  | error e =>
      have hwork := h.work
      rw [behind, List.append_nil]
      rw [hr] at hwork
      refine ⟨hwork, fun hd he => ?_, fun _ b r' hb => (by cases hb)⟩
      exact h.total hd (hr.trans (congrArg Except.error (Except.error.inj he)))
  | ok p =>
      obtain ⟨a, r⟩ := p
      have hwork := h.work
      have hlt := h.shorter hc hr
      have hnext := h' a r hr
      have hwork' := hnext.work
      rw [hr, left] at hwork
      refine ⟨?_, fun hd => hnext.total (by omega), fun hcalls b r' hb => ?_⟩
      · show (calls ++ calls' a r).length + left (next a r) ≤ _
        rw [List.length_append]
        omega
      · have hfirst := h.post (fun x hx => hcalls (List.mem_append_left _ hx)) a r hr
        have hsecond := hnext.post (fun x hx => hcalls (List.mem_append_right _ hx)) b r' hb
        exact hpost a r b r' hfirst hsecond

/-- What is read is passed to `f`. -/
theorem map {f : α → β} (h : Spent c N C d result calls Q) (hpost : ∀ x r, Q x r → R' (f x) r) :
    Spent c N C d (result >>= fun p => .ok (f p.1, p.2)) calls R' := by
  cases result with
  | error e =>
      refine ⟨h.work, fun hd he => ?_, fun _ b r hb => (by cases hb)⟩
      exact h.total hd (congrArg Except.error (Except.error.inj he))
  | ok p =>
      refine ⟨h.work, fun _ he => (by cases he), fun hcalls b r hb => ?_⟩
      obtain ⟨rfl, rfl⟩ := Prod.mk.inj (Except.ok.inj hb)
      exact hpost _ _ (h.post hcalls p.1 p.2 rfl)

/-- A primitive that reads something. -/
theorem primitive {p : Primitive} {x : Except ε (α × List UInt8)}
    (hlt : ∀ {a r}, x = .ok (a, r) → r.length < d.length)
    (hQ : (p, d) ∈ C → ∀ a r, x = .ok (a, r) → Q a r) :
    Spent 1 N C d (call x) [(p, d)] Q := by
  cases x with
  | error e =>
      exact ⟨Nat.le_add_left _ _, fun _ => call_ne_depth, fun _ a r h => (by cases h)⟩
  | ok q =>
      refine ⟨?_, fun _ => call_ne_depth, fun hcalls a r h => ?_⟩
      · have := hlt (a := q.1) (r := q.2) rfl
        show 1 + (3 * q.2.length + 3) ≤ _
        omega
      · exact hQ (hcalls List.mem_cons_self) a r (call_ok.mp h)

/-- A primitive that reads something and returns nothing. -/
theorem marker {p : Primitive} {x : Except ε (List UInt8)} {v : α}
    (hlt : ∀ {r}, x = .ok r → r.length < d.length) (hQ : ∀ r, x = .ok r → Q v r) :
    Spent 1 N C d (call x >>= fun r => .ok (v, r)) [(p, d)] Q := by
  cases x with
  | error e =>
      exact ⟨Nat.le_add_left _ _, fun _ => arm_ne_depth, fun _ a r h => (by cases h)⟩
  | ok r₁ =>
      have := hlt (r := r₁) rfl
      refine ⟨?_, fun _ => arm_ne_depth, fun _ a r h => ?_⟩
      · show 1 + (3 * r₁.length + 3) ≤ _
        omega
      · obtain ⟨rfl, rfl⟩ := Prod.mk.inj (Except.ok.inj h)
        exact hQ _ rfl

end Spent

/-! ## The loops -/

section Loops

variable {N : Nat} {C : List PrimitiveCall} {item : Reader ε α}
  {calls : List UInt8 → List PrimitiveCall} {size : α → Nat} {P : α → Prop}

/-- An element read at `d` has no more nodes than bytes, and is right. -/
def Costs (size : α → Nat) (P : α → Prop) (d : List UInt8) (x : α) (r : List UInt8) : Prop :=
  size x + r.length ≤ d.length ∧ P x

/-- The same of all elements of a loop. -/
def CostsAll (size : α → Nat) (P : α → Prop) (d : List UInt8) (xs : List α) (r : List UInt8) :
    Prop :=
  (xs.map size).sum + r.length ≤ d.length ∧ ∀ x ∈ xs, P x

theorem CostsAll.nil {d r : List UInt8} (h : r.length ≤ d.length) : CostsAll size P d [] r :=
  ⟨Nat.le_trans (Nat.le_of_eq (Nat.zero_add _)) h, List.forall_mem_nil _⟩

theorem CostsAll.cons {d r r' : List UInt8} {x : α} {xs : List α} (h : Costs size P d x r)
    (h' : CostsAll size P r xs r') : CostsAll size P d (x :: xs) r' := by
  obtain ⟨hsize, hP⟩ := h
  obtain ⟨hsizes, hPs⟩ := h'
  refine ⟨?_, List.forall_mem_cons.mpr ⟨hP, hPs⟩⟩
  rw [List.map_cons, List.sum_cons]
  omega

/-- An element, and the others behind it. -/
theorem cons_spent {d : List UInt8} {others : Reader ε (List α)}
    {calls' : List UInt8 → List PrimitiveCall}
    (h : Spent 2 N C d (item d) (calls d) (Costs size P d))
    (h' : ∀ r, r.length < d.length →
      Spent 3 N C r (others r) (calls' r) (CostsAll size P r)) :
    Spent 2 N C d (item d >>= fun p => others p.2 >>= fun q => .ok (p.1 :: q.1, q.2))
      (calls d ++ behind (item d) fun _ r => calls' r) (CostsAll size P d) := by
  have hothers : ∀ x r, item d = .ok (x, r) →
      Spent 3 N C r (others r >>= fun q => .ok (x :: q.1, q.2)) (calls' r)
        fun ys r' => Costs size P d x r → CostsAll size P d ys r' := by
    intro x r hx
    exact (h' r (h.shorter (Nat.le_refl 2) hx)).map fun xs r' hxs hd => .cons hd hxs
  exact h.bind (Nat.le_refl 2) (Nat.le_succ N) hothers fun x r xs r' hx hxs => hxs hx

theorem times_spent (h : ∀ d, Spent 2 N C d (item d) (calls d) (Costs size P d)) :
    ∀ (n : Nat) (d : List UInt8),
      Spent 3 N C d (times item n d) (timesCalls item calls n d) (CostsAll size P d)
  | 0, d => by
      refine ⟨Nat.le_of_eq (Nat.zero_add _), fun _ he => (by cases he), fun _ xs r hxs => ?_⟩
      obtain ⟨rfl, rfl⟩ := Prod.mk.inj (Except.ok.inj hxs)
      exact .nil (Nat.le_refl _)
  | n + 1, d => by
      rw [timesCalls, times]
      exact (cons_spent (h d) fun r _ => times_spent h n r).mono (Nat.le_succ 2)

theorem untilBreak_spent (hcb : cb.Consuming)
    (h : ∀ d, Spent 2 N C d (item d) (calls d) (Costs size P d)) :
    ∀ (k : Nat) (d : List UInt8), d.length < k →
      Spent 3 N C d (untilBreak cb item k d) (untilBreakCalls cb item calls k d)
        (CostsAll size P d)
  | 0, d, hk => absurd hk (Nat.not_lt_zero _)
  | k + 1, d, hk => by
      rw [untilBreakCalls, untilBreak]
      refine Spent.tick ?_
      cases ht : cb.datatype d with
      | error e =>
          refine ⟨Nat.zero_le _, fun _ he => ?_, fun _ xs r hxs => (by cases hxs)⟩
          cases Except.error.inj he
      | ok t =>
          show Spent 2 N C d (if t = .break then _ else _) (if t = .break then _ else _) _
          by_cases hbreak : t = .break
          · rw [if_pos hbreak, if_pos hbreak]
            exact (Spent.marker hcb.skip_lt fun r hr => .nil (Nat.le_of_lt (hcb.skip_lt hr))).mono
              (Nat.le_succ 1)
          · rw [if_neg hbreak, if_neg hbreak]
            exact cons_spent (h d) fun r hr => untilBreak_spent hcb h k r (by omega)

theorem items_spent (hcb : cb.Consuming)
    (h : ∀ d, Spent 2 N C d (item d) (calls d) (Costs size P d)) (len : Option UInt64)
    (d : List UInt8) :
    Spent 3 N C d (items cb item len d) (itemsCalls cb item calls len d) (CostsAll size P d) := by
  cases len with
  | none => exact untilBreak_spent hcb h _ d (Nat.lt_succ_self _)
  | some n => exact times_spent h _ d

end Loops

/-! ## `decode` -/

/-- A value is as `decode` should have read it, if its numbers are. -/
def RightNumbers (cb : Minicbor ε) (C : List PrimitiveCall) (v : Value) : Prop :=
  ∀ x ∈ v.numbers, ReadAs cb C x

section Decode

variable {N : Nat} {C : List PrimitiveCall}

/-- A primitive, and a read behind it. -/
theorem read_spent {N' : Nat} {p : Primitive} {d : List UInt8} {x : Except ε (α × List UInt8)}
    {g : α → Reader ε β} {calls : α → List UInt8 → List PrimitiveCall}
    {R : β → List UInt8 → Prop} (hlt : ∀ {a r}, x = .ok (a, r) → r.length < d.length)
    (hN : N ≤ N' + 1)
    (hnext : ∀ a r, r.length < d.length → Spent 3 N' C r (g a r) (calls a r) R) :
    Spent 1 N C d (call x >>= fun q => g q.1 q.2) ((p, d) :: behind x calls) R := by
  have hread : Spent 1 N C d (call x) [(p, d)] fun _ _ => True :=
    .primitive hlt fun _ _ _ _ => trivial
  have hbehind : behind (call x) calls = behind x calls := by cases x <;> rfl
  have h := hread.bind (Nat.le_succ 1) hN
    (fun a r ha => hnext a r (hlt (call_ok.mp ha))) fun _ _ _ _ _ hb => hb
  rwa [hbehind] at h

theorem entry_spent (hcb : cb.Consuming) {value : Reader ε Value}
    {calls : List UInt8 → List PrimitiveCall}
    (h : ∀ d, Spent 2 N C d (value d) (calls d) (Costs nodes (RightNumbers cb C) d))
    (d : List UInt8) :
    Spent 2 N C d (entry cb value d) (entryCalls cb calls d)
      (Costs (fun kv => nodes kv.2 + 1) (fun kv => RightNumbers cb C kv.2) d) := by
  rw [entry, entryCalls]
  refine (read_spent (g := fun key r => value r >>= fun q => .ok ((key, q.1), q.2)) hcb.str_lt
    (Nat.le_succ N) fun key r hr => ?_).mono (Nat.le_succ 1)
  refine ((h r).mono (Nat.le_succ 2)).map (f := fun v => (key, v)) ?_
  rintro v r' ⟨hsize, hnumbers⟩
  refine ⟨?_, hnumbers⟩
  dsimp only
  omega

/-- A scalar is one node, read by one primitive. -/
theorem scalar_spent {p : Primitive} {d : List UInt8} {x : Except ε (α × List UInt8)}
    {f : α → Value} (hlt : ∀ {a r}, x = .ok (a, r) → r.length < d.length)
    (hnodes : ∀ a, nodes (f a) = 1)
    (hnumbers : (p, d) ∈ C → ∀ a r, x = .ok (a, r) → RightNumbers cb C (f a)) :
    Spent 1 N C d (call x >>= fun p => .ok (f p.1, p.2)) [(p, d)]
      (Costs nodes (RightNumbers cb C) d) := by
  have hread : Spent 1 N C d (call x) [(p, d)]
      fun a r => Costs nodes (RightNumbers cb C) d (f a) r := by
    refine .primitive hlt fun hp a r hx => ⟨?_, hnumbers hp a r hx⟩
    have := hlt hx
    rw [hnodes]
    omega
  exact hread.map fun _ _ h => h

/-- A container is a node more than its elements. -/
theorem container_spent {k : Nat} (hcb : cb.Consuming) {p : Primitive} {d : List UInt8}
    {x : Except ε (Option UInt64 × List UInt8)} {item : Reader ε α}
    {calls : List UInt8 → List PrimitiveCall} {size : α → Nat} {P : α → Prop}
    {f : List α → Value} (hlt : ∀ {a r}, x = .ok (a, r) → r.length < d.length)
    (hitem : ∀ d, Spent 2 k C d (item d) (calls d) (Costs size P d))
    (hnodes : ∀ xs, nodes (f xs) = (xs.map size).sum + 1)
    (hnumbers : ∀ xs, (∀ y ∈ xs, P y) → RightNumbers cb C (f xs)) :
    Spent 1 (k + 1) C d
      (call x >>= fun q => items cb item q.1 q.2 >>= fun q => .ok (f q.1, q.2))
      ((p, d) :: behind x (itemsCalls cb item calls)) (Costs nodes (RightNumbers cb C) d) := by
  refine read_spent (g := fun len r => items cb item len r >>= fun q => .ok (f q.1, q.2)) hlt
    (Nat.le_refl _) fun len r hr => ?_
  refine (items_spent hcb hitem len r).map (f := f) ?_
  rintro xs r' ⟨hsizes, hPs⟩
  refine ⟨?_, hnumbers xs hPs⟩
  rw [hnodes]
  omega

theorem decodeN_spent (hcb : cb.Consuming) : ∀ (k : Nat) (d : List UInt8),
    Spent 2 k C d (decodeN cb k d) (decodeCallsN cb k d) (Costs nodes (RightNumbers cb C) d)
  | 0, d => ⟨Nat.zero_le _, fun hd => absurd hd (Nat.not_lt_zero _), fun _ _ _ h => (by cases h)⟩
  | k + 1, d => by
      have ih : ∀ d, Spent 2 k C d (decodeN cb k d) (decodeCallsN cb k d)
          (Costs nodes (RightNumbers cb C) d) := decodeN_spent hcb k
      rw [decodeN, decodeCallsN]
      refine Spent.tick ?_
      cases ht : cb.datatype d with
      | error e =>
          refine ⟨Nat.zero_le _, fun _ he => ?_, fun _ xs r hxs => (by cases hxs)⟩
          cases Except.error.inj he
      | ok t =>
          have hnone : ∀ {v : Value}, v.numbers = [] → RightNumbers cb C v := by
            intro v hv x hx
            rw [hv] at hx
            cases hx
          have unsigned : t.unsigned = true →
              Spent 1 (k + 1) C d (call (cb.u64 d) >>= fun p => .ok (Value.u64 p.1, p.2))
                [(.u64, d)] (Costs nodes (RightNumbers cb C) d) := fun hun =>
            scalar_spent hcb.u64_lt (fun _ => rfl) fun hp n r hn =>
              List.forall_mem_singleton.mpr ⟨d, t, r, hp, ht, hun, hn⟩
          have signed : t.signed = true →
              Spent 1 (k + 1) C d (call (cb.i64 d) >>= fun p => .ok (Value.i64 p.1, p.2))
                [(.i64, d)] (Costs nodes (RightNumbers cb C) d) := fun hsi =>
            scalar_spent hcb.i64_lt (fun _ => rfl) fun hp n r hn =>
              List.forall_mem_singleton.mpr ⟨hcb.i64_neg ht hsi hn, d, t, r, hp, ht, hsi, hn⟩
          cases t with
          | null =>
              refine Spent.marker hcb.null_lt fun r hr => ⟨?_, hnone rfl⟩
              have := hcb.null_lt hr
              show 1 + r.length ≤ d.length
              omega
          | bool => exact scalar_spent hcb.bool_lt (fun _ => rfl) fun _ _ _ _ => hnone rfl
          | u8 | u16 | u32 | u64 => exact unsigned rfl
          | i8 | i16 | i32 | i64 => exact signed rfl
          | string => exact scalar_spent hcb.str_lt (fun _ => rfl) fun _ _ _ _ => hnone rfl
          | bytes => exact scalar_spent hcb.bytes_lt (fun _ => rfl) fun _ _ _ _ => hnone rfl
          | array | arrayIndef =>
              refine container_spent hcb hcb.array_lt ih (fun xs => ?_) fun xs hxs => ?_
              · rw [nodes, nodesItems_eq]
              · intro y hy
                obtain ⟨v, hv, hyv⟩ := mem_numbersItems hy
                exact hxs v hv y hyv
          | map | mapIndef =>
              refine container_spent hcb hcb.map_lt (entry_spent hcb ih) (fun xs => ?_)
                fun xs hxs => ?_
              · rw [nodes, nodesEntries_eq]
              · intro y hy
                obtain ⟨kv, hkv, hykv⟩ := mem_numbersEntries hy
                exact hxs kv hkv y hykv
          | undefined | simple | f16 | f32 | f64 | int | bytesIndef | stringIndef | tag | «break»
          | unknown =>
              refine ⟨Nat.zero_le _, fun _ he => ?_, fun _ xs r hxs => (by cases hxs)⟩
              cases Except.error.inj he

/-- **What it costs to read a value.**  Whatever the bytes are, `decode` ends, after no
more than three calls of the library a byte, and two.  A value that it returns has no more
nodes than the bytes it was read from, and its numbers are of the kind that the library
announced: unsigned ones, and negative ones. -/
theorem decode_effort (hcb : cb.Consuming) (d : List UInt8) :
    decode cb d ≠ .error .depth ∧ (decodeCalls cb d).length ≤ 3 * d.length + 2 ∧
      ∀ v r, decode cb d = .ok (v, r) →
        v.nodes + r.length ≤ d.length ∧ ∀ x ∈ v.numbers, ReadAs cb (decodeCalls cb d) x := by
  have hspent := @decodeN_spent ε cb (decodeCalls cb d) hcb (d.length + 1) d
  refine ⟨hspent.total (Nat.lt_succ_self _), ?_, fun v r hv => ?_⟩
  · exact Nat.le_trans (Nat.le_add_right _ _) hspent.work
  · exact hspent.post (List.Subset.refl _) v r hv

/-- A list of two numbers, one of them negative, and a byte more. -/
theorem decode_effort_pair :
    let d : List UInt8 := [0x82, 0x07, 0x20, 0xFF]
    decode rfc8949 d = .ok (.array [.u64 7, .i64 (-1)], [0xFF]) ∧
      (Value.array [.u64 7, .i64 (-1)]).nodes + 1 ≤ d.length := by
  intro d
  have hread : decode rfc8949 d = .ok (.array [.u64 7, .i64 (-1)], [0xFF]) := by rfl
  exact ⟨hread, ((decode_effort rfc8949_lawful.consuming d).2.2 _ _ hread).1⟩

end Decode

end Value

end FlipLink
