/-
# `FlipLink.Core.Serial` — which port is the agent's

Of several flipper ports `pick_agent_port` takes the last in the order of their names
(`picked_iff`).  It is meant to be the higher-numbered one, and is that exactly if no other
number is greater than its first digits, as many as the other has (`higher_numbered_iff`): of
`1` and `3` it is `3`, and of `9` and `10` it is `9`.
-/
import FlipLink.Lib.Collation

namespace FlipLink

open Lib.Text

namespace Serial

inductive SerialPortType where
  | usbPort (vid : UInt16)
  | other
  deriving DecidableEq, Repr

structure SerialPortInfo where
  portName : String
  portType : SerialPortType
  deriving DecidableEq, Repr

/-- `to_lowercase().contains("flip")`; no other letter has an `f`, `l` or `p` as its lower case,
and the `İ` keeps its dot behind the `i`. -/
def isFlipName (p : SerialPortInfo) : Bool :=
  (p.portName.toList.map Char.toLower).tails.any fun cs => "flip".toList.isPrefixOf cs

def isFlipVid (p : SerialPortInfo) : Bool :=
  match p.portType with
  | .usbPort vid => vid == 0x0483
  | .other => false

/-- The names that are sorted. -/
def candidates (ports : List SerialPortInfo) : List String :=
  (ports.filter fun p => isFlipName p || isFlipVid p).map SerialPortInfo.portName

/-- Texts are in the order of their bytes, which is that of their characters. -/
def listFlipperPorts (ports : List SerialPortInfo) : List String :=
  (candidates ports).mergeSort fun a b => decide (a ≤ b)

/-- `flipPort` is the variable `FLIP_PORT`, `available` what `available_ports` returns. -/
def pickAgentPort (flipPort : Option String) (available : Except String (List SerialPortInfo)) :
    Except String String :=
  match flipPort with
  | some p => .ok p
  | none =>
      match available with
      | .error e => .error e
      | .ok ports =>
          match listFlipperPorts ports with
          | [] => .error "no Flipper serial ports found (is it connected and the FAP running?)"
          | [p] => .ok p
          | names =>
              match names.getLast? with
              | some p => .ok p
              | none => .error "no Flipper serial ports found after filtering"

theorem pickAgentPort_eq (ports : List SerialPortInfo) {p : String} :
    pickAgentPort none (.ok ports) = .ok p ↔ (listFlipperPorts ports).getLast? = some p := by
  unfold pickAgentPort
  dsimp only
  split
  · rename_i hnames
    rw [hnames]
    exact iff_of_false (fun h => by cases h) fun h => by cases h
  · rename_i q hnames
    rw [hnames, List.getLast?_singleton, Option.some_inj, Except.ok.injEq]
  · split
    · rename_i q hlast
      rw [hlast, Option.some_inj, Except.ok.injEq]
    · rename_i hlast
      rw [hlast]
      exact iff_of_false (fun h => by cases h) fun h => by cases h

/-- The port that is picked has the last name. -/
theorem picked_iff (ports : List SerialPortInfo) {p : String} :
    pickAgentPort none (.ok ports) = .ok p ↔
      p ∈ candidates ports ∧ ∀ q ∈ candidates ports, q ≤ p := by
  have hsorted : (listFlipperPorts ports).Pairwise fun a b => a ≤ b := by
    refine List.Pairwise.imp (fun h => of_decide_eq_true h)
      (List.pairwise_mergeSort (fun a b c hab hbc => ?_) (fun a b => ?_) (candidates ports))
    · exact decide_eq_true (le_trans (of_decide_eq_true hab) (of_decide_eq_true hbc))
    · rcases le_total a b with h | h
      · rw [decide_eq_true h, Bool.true_or]
      · rw [decide_eq_true h, Bool.or_true]
  have hmem : ∀ {q : String}, q ∈ listFlipperPorts ports ↔ q ∈ candidates ports :=
    List.mem_mergeSort
  rw [pickAgentPort_eq]
  constructor
  · intro hlast
    obtain ⟨before, hnames⟩ := List.getLast?_eq_some_iff.mp hlast
    refine ⟨hmem.mp (hnames ▸ List.mem_append_right _ (List.mem_singleton_self p)), fun q hq => ?_⟩
    rw [hnames] at hsorted
    rcases List.mem_append.mp (hnames ▸ hmem.mpr hq) with hbefore | hq
    · exact (List.pairwise_append.mp hsorted).2.2 q hbefore p (List.mem_singleton_self p)
    · exact (List.mem_singleton.mp hq).le
  · rintro ⟨hp, hall⟩
    cases hlast : (listFlipperPorts ports).getLast? with
    | none =>
        rw [List.getLast?_eq_none_iff] at hlast
        exact absurd (hlast ▸ hmem.mpr hp) List.not_mem_nil
    | some q =>
        obtain ⟨before, hnames⟩ := List.getLast?_eq_some_iff.mp hlast
        have hq := hall q (hmem.mp (hnames ▸ List.mem_append_right _ (List.mem_singleton_self q)))
        rw [hnames] at hsorted
        rcases List.mem_append.mp (hnames ▸ hmem.mpr hp) with hbefore | hpq
        · have hle := (List.pairwise_append.mp hsorted).2.2 p hbefore q (List.mem_singleton_self q)
          rw [le_antisymm hq hle]
        · rw [List.mem_singleton.mp hpq]

/-- A port with a number, as the system names them. -/
def numbered (base : String) (n : Nat) : String := base ++ String.ofList (digits n)

theorem numbered_le_iff (base : String) {m n : Nat} (h : m ≤ n) :
    numbered base m ≤ numbered base n ↔
      m ≤ n / 10 ^ ((digits n).length - (digits m).length) := by
  rw [← not_lt, String.lt_iff_toList_lt, numbered, numbered, String.toList_append,
    String.toList_append, String.toList_ofList, String.toList_ofList, append_lt_append_iff,
    digits_lt_iff h, not_lt]

/-- **The higher-numbered port.**  Of flipper ports with one name and different numbers, the
one with the highest number is picked exactly if none of the numbers is greater than the
number that is left of the highest when it is cut to as many digits. -/
theorem higher_numbered_iff {base : String} {numbers : List Nat} {ports : List SerialPortInfo}
    (hports : candidates ports = numbers.map (numbered base)) {n : Nat} (hn : n ∈ numbers)
    (hmax : ∀ m ∈ numbers, m ≤ n) :
    pickAgentPort none (.ok ports) = .ok (numbered base n) ↔
      ∀ m ∈ numbers, m ≤ n / 10 ^ ((digits n).length - (digits m).length) := by
  rw [picked_iff, hports]
  constructor
  · rintro ⟨-, hlast⟩ m hm
    exact (numbered_le_iff base (hmax m hm)).mp (hlast _ (List.mem_map_of_mem hm))
  · intro h
    refine ⟨List.mem_map_of_mem hn, fun q hq => ?_⟩
    obtain ⟨m, hm, rfl⟩ := List.mem_map.mp hq
    exact (numbered_le_iff base (hmax m hm)).mpr (h m hm)

def agentBase : String := "/dev/cu.usbmodemFlip_"

/-- Two ports of a Flipper, with a modem between them. -/
def listed (m n : Nat) : List SerialPortInfo :=
  [⟨numbered agentBase n, .usbPort 0x0483⟩, ⟨"/dev/cu.modem", .other⟩,
    ⟨numbered agentBase m, .usbPort 0x0483⟩]

theorem higher_numbered_iff_nine :
    pickAgentPort none (.ok (listed 1 3)) = .ok (numbered agentBase 3) ∧
      pickAgentPort none (.ok (listed 9 10)) ≠ .ok (numbered agentBase 10) := by
  have hthree : candidates (listed 1 3) = [3, 1].map (numbered agentBase) := by decide +kernel
  have hten : candidates (listed 9 10) = [10, 9].map (numbered agentBase) := by decide +kernel
  refine ⟨(higher_numbered_iff hthree (by decide) (by decide)).mpr (by decide), fun h => ?_⟩
  exact absurd ((higher_numbered_iff hten (by decide) (by decide)).mp h) (by decide)

end Serial

end FlipLink
