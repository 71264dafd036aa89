/-
# `FlipLink.Client.Subghz` — Sub-GHz signals on the host

`SubGhzSignal` of `subghz.rs`: the file format, the parameters of the requests,
and the edges in the records of a capture stream.  `subghz_capture` is in
`FlipLink.Client.SubghzCapture`.

A file is read back as the signal it was written from exactly if the signal has
edges and `parse` admits the duration of each (`parse_toFileString_iff`), and every
signal that is read from any text is such a one (`file_round_trip`).
-/
import FlipLink.Lib.Records
import FlipLink.Lib.Text
import FlipLink.Proto.Messages

namespace FlipLink

open Lib Text

def maxSubghzDurationUs : UInt32 := 0x3fffffff

inductive SubGhzPreset where
  | ook270 | ook650 | fskDev238 | fskDev476 | msk99_97 | gfsk9_99
  deriving DecidableEq, Repr

namespace SubGhzPreset

def asStr : SubGhzPreset → String
  | .ook270 => "ook270"
  | .ook650 => "ook650"
  | .fskDev238 => "2fsk_dev238"
  | .fskDev476 => "2fsk_dev476"
  | .msk99_97 => "msk99_97"
  | .gfsk9_99 => "gfsk9_99"

def fromStr (value : String) : Except String SubGhzPreset :=
  match value with
  | "ook270" => .ok .ook270
  | "ook650" => .ok .ook650
  | "2fsk_dev238" => .ok .fskDev238
  | "2fsk_dev476" => .ok .fskDev476
  | "msk99_97" => .ok .msk99_97
  | "gfsk9_99" => .ok .gfsk9_99
  | _ => .error ("unknown Sub-GHz preset '" ++ value ++ "'")

theorem asStr_word (p : SubGhzPreset) : Word p.asStr.toList := by
  cases p <;> exact .of_all (List.cons_ne_nil _ _) (by decide)

end SubGhzPreset

structure SubGhzEdge where
  level : Bool
  durationUs : UInt32
  deriving DecidableEq, Repr

structure SubGhzSignal where
  frequency : UInt32
  preset : SubGhzPreset
  edges : List SubGhzEdge
  deriving DecidableEq, Repr

namespace SubGhzSignal

/-! ## The file format -/

/-- `parse::<u32>` of a token. -/
def tokenU32 (token : List Char) : Option UInt32 := (parseBelow (2 ^ 32) token).map UInt32.ofNat

def parseU32 (name : String) (rest : List Char) : Except String UInt32 :=
  match words rest with
  | [] => .error ("missing " ++ name ++ " value")
  | token :: _ =>
      match tokenU32 token with
      | some n => .ok n
      | none => .error ("invalid " ++ name ++ " value '" ++ String.ofList token ++ "'")

/-- The locals of `parse`. -/
structure Parsed where
  frequency : Option UInt32
  preset : Option SubGhzPreset
  edges : List SubGhzEdge
  deriving DecidableEq, Repr

/-- A line that begins with `#`; most of them are comments. -/
def parseDirective (p : Parsed) (comment : List Char) : Except String Parsed :=
  let directive := trim comment
  match "frequency=".toList.isPrefixOf? directive with
  | some rest =>
      match parseU32 "frequency" rest with
      | .ok n => .ok { p with frequency := some n }
      | .error e => .error e
  | none =>
  match "preset=".toList.isPrefixOf? directive with
  | some rest =>
      match words rest with
      | [] => .error "missing preset value"
      | token :: _ =>
          match SubGhzPreset.fromStr (String.ofList token) with
          | .ok preset => .ok { p with preset := some preset }
          | .error e => .error e
  | none => .ok p

def parseLevel (field : List Char) : Except String Bool :=
  if field = "0".toList then .ok false
  else if field = "1".toList then .ok true
  else .error ("invalid Sub-GHz level '" ++ String.ofList field ++ "'")

def parseDuration (field : List Char) : Except String UInt32 :=
  match tokenU32 field with
  | none => .error ("invalid Sub-GHz duration '" ++ String.ofList field ++ "'")
  | some durationUs =>
      if durationUs = 0 ∨ durationUs > maxSubghzDurationUs then
        .error ("Sub-GHz duration out of range: " ++ toString durationUs.toNat)
      else .ok durationUs

def parseEdgeLine (p : Parsed) (trimmed : List Char) : Except String Parsed :=
  match words trimmed with
  | [first, second] =>
      match parseLevel first with
      | .error e => .error e
      | .ok level =>
      match parseDuration second with
      | .error e => .error e
      | .ok durationUs => .ok { p with edges := p.edges ++ [{ level, durationUs }] }
  | _ => .error ("invalid Sub-GHz edge line '" ++ String.ofList trimmed ++ "'")

/-- One turn of the loop over the lines. -/
def parseLine (p : Parsed) (line : List Char) : Except String Parsed :=
  match trim line with
  | [] => .ok p
  | '#' :: comment => parseDirective p comment
  | trimmed => parseEdgeLine p trimmed

def parseLines : Parsed → List (List Char) → Except String Parsed
  | p, [] => .ok p
  | p, l :: ls =>
      match parseLine p l with
      | .ok p' => parseLines p' ls
      | .error e => .error e

/-- The end of `parse`. -/
def finish (p : Parsed) : Except String SubGhzSignal :=
  match p.frequency with
  | none => .error "Sub-GHz frequency missing"
  | some frequency =>
  match p.preset with
  | none => .error "Sub-GHz preset missing"
  | some preset =>
      if p.edges.isEmpty then .error "no Sub-GHz edges found"
      else .ok { frequency, preset, edges := p.edges }

def parse (text : String) : Except String SubGhzSignal :=
  match parseLines { frequency := none, preset := none, edges := [] } (lines text.toList) with
  | .ok p => finish p
  | .error e => .error e

/-- The line of an edge. -/
def edgeLine (e : SubGhzEdge) : List Char :=
  (if e.level then "1" else "0").toList ++ [' '] ++ digits e.durationUs.toNat

/-- The lines of `to_file_string`. -/
def fileLines (s : SubGhzSignal) : List (List Char) :=
  "# format=flip-subghz-raw-v1".toList :: ("# frequency=".toList ++ digits s.frequency.toNat) ::
    ("# preset=".toList ++ s.preset.asStr.toList) :: s.edges.map edgeLine

def toFileString (s : SubGhzSignal) : String :=
  String.ofList (s.fileLines.flatMap (· ++ ['\n']))

/-! ## Request parameters -/

def edgeToValue (e : SubGhzEdge) : Value :=
  .map [("level", .bool e.level), ("duration_us", .u64 e.durationUs.toUInt64)]

def captureParams (frequency : UInt32) (preset : SubGhzPreset) : Value :=
  .map [("frequency", .u64 frequency.toUInt64), ("preset", .text preset.asStr)]

def toTransmitParams (s : SubGhzSignal) (repeat_ : UInt32) : Value :=
  .map [("frequency", .u64 s.frequency.toUInt64), ("preset", .text s.preset.asStr),
    ("repeat", .u64 repeat_.toUInt64), ("edges", .array (s.edges.map edgeToValue))]

/-! ## Stream records -/

/-- The edge of a 5-byte record; one of no duration is left out. -/
def recordEdge : List UInt8 → Option SubGhzEdge
  | [b0, b1, b2, b3, b4] =>
      let durationUs := ofLe32 [b1, b2, b3, b4]
      if durationUs > 0 then some { level := b0 ≠ 0, durationUs } else none
  | _ => none

/-- The edges that `decode_stream_data` pushes. -/
def streamEdges (payload : List UInt8) : List SubGhzEdge :=
  (chunksExact 5 payload).filterMap recordEdge

/-- `decode_stream_data`: the edges with the payload's behind them, and how many
those were. -/
def decodeStreamData (payload : List UInt8) (out : List SubGhzEdge) : List SubGhzEdge × Nat :=
  (out ++ streamEdges payload, (streamEdges payload).length)

/-! ## A file is read back -/

/-- The durations that `parse` admits. -/
def Admitted (e : SubGhzEdge) : Prop := e.durationUs ≠ 0 ∧ e.durationUs ≤ maxSubghzDurationUs

instance (e : SubGhzEdge) : Decidable (Admitted e) :=
  inferInstanceAs (Decidable (_ ∧ _))

/-- A signal that can be stored: it has edges, of admitted durations. -/
def Stored (s : SubGhzSignal) : Prop := s.edges ≠ [] ∧ ∀ e ∈ s.edges, Admitted e

theorem tokenU32_digits (n : UInt32) : tokenU32 (digits n.toNat) = some n := by
  rw [tokenU32, parseBelow_digits n.toNat_lt, Option.map_some, UInt32.ofNat_toNat]

theorem parseU32_digits (name : String) (n : UInt32) : parseU32 name (digits n.toNat) = .ok n := by
  rw [parseU32, (digits_word _).words]
  dsimp only
  rw [tokenU32_digits]

theorem frequency_word (n : Nat) : Word ("frequency=".toList ++ digits n) :=
  Word.append (.of_all (List.cons_ne_nil _ _) (by decide)) (digits_word n)

theorem preset_word (p : SubGhzPreset) : Word ("preset=".toList ++ p.asStr.toList) :=
  Word.append (.of_all (List.cons_ne_nil _ _) (by decide)) p.asStr_word

theorem hash_word : Word "#".toList := .of_all (List.cons_ne_nil _ _) (by decide)

theorem level_word (b : Bool) : Word (if b then "1" else "0").toList := by
  cases b <;> exact .of_all (List.cons_ne_nil _ _) (by decide)

theorem edgeLine_line (e : SubGhzEdge) : Line (edgeLine e) :=
  (level_word e.level).line (digits_word _)

theorem fileLines_line (s : SubGhzSignal) : ∀ l ∈ s.fileLines, Line l := by
  have hformat : Word "format=flip-subghz-raw-v1".toList :=
    .of_all (List.cons_ne_nil _ _) (by decide)
  rw [fileLines]
  simp only [List.forall_mem_cons, List.forall_mem_map]
  exact ⟨hash_word.line hformat, hash_word.line (frequency_word _),
    hash_word.line (preset_word _), fun e _ => edgeLine_line e⟩

theorem parseLine_frequency (p : Parsed) (n : UInt32) :
    parseLine p ("# frequency=".toList ++ digits n.toNat) = .ok { p with frequency := some n } := by
  have hline : Line ("# frequency=".toList ++ digits n.toNat) := hash_word.line (frequency_word _)
  rw [parseLine, hline.trim]
  show parseDirective p (' ' :: ("frequency=".toList ++ digits n.toNat)) = _
  rw [parseDirective, trim_cons_blank, (frequency_word _).trimmed.trim]
  show (match parseU32 "frequency" (digits n.toNat) with
    | .ok n => Except.ok { p with frequency := some n }
    | .error e => .error e) = _
  rw [parseU32_digits]

theorem parseLine_preset (p : Parsed) (preset : SubGhzPreset) :
    parseLine p ("# preset=".toList ++ preset.asStr.toList)
      = .ok { p with preset := some preset } := by
  cases preset <;> rfl

theorem parseLine_edge (p : Parsed) (e : SubGhzEdge) :
    parseLine p (edgeLine e)
      = if Admitted e then .ok { p with edges := p.edges ++ [e] }
        else .error ("Sub-GHz duration out of range: " ++ toString e.durationUs.toNat) := by
  have hedge : parseLine p (edgeLine e) = parseEdgeLine p (edgeLine e) := by
    rw [parseLine, (edgeLine_line e).trim, edgeLine]
    cases e.level <;> rfl
  have hwords : words (edgeLine e)
      = [(if e.level then "1" else "0").toList, digits e.durationUs.toNat] := by
    rw [edgeLine, List.append_assoc, List.singleton_append, (level_word _).words_cons,
      (digits_word _).words]
  have hlevel : parseLevel (if e.level then "1" else "0").toList = .ok e.level := by
    cases e.level <;> rfl
  have hduration : parseDuration (digits e.durationUs.toNat)
      = if Admitted e then .ok e.durationUs
        else .error ("Sub-GHz duration out of range: " ++ toString e.durationUs.toNat) := by
    rw [parseDuration, tokenU32_digits]
    dsimp only
    by_cases ha : Admitted e
    · rw [if_neg (not_or.mpr ⟨ha.1, UInt32.not_lt.mpr ha.2⟩), if_pos ha]
    · have hout : e.durationUs = 0 ∨ e.durationUs > maxSubghzDurationUs := by
        rw [Admitted, not_and_or, not_not, UInt32.not_le] at ha
        exact ha
      rw [if_pos hout, if_neg ha]
  rw [hedge, parseEdgeLine, hwords]
  dsimp only
  rw [hlevel, hduration]
  split_ifs <;> rfl

theorem parseLines_edges : ∀ {edges : List SubGhzEdge}, (∀ e ∈ edges, Admitted e) →
    ∀ p : Parsed, parseLines p (edges.map edgeLine) = .ok { p with edges := p.edges ++ edges }
  | [], _, p => by rw [List.append_nil]; rfl
  | e :: es, h, p => by
      obtain ⟨he, hes⟩ := List.forall_mem_cons.mp h
      rw [List.map_cons, parseLines, parseLine_edge, if_pos he]
      dsimp only
      rw [parseLines_edges hes, List.append_assoc, List.singleton_append]

/-- An edge that is not admitted stops the loop. -/
theorem parseLines_edges_error : ∀ {edges : List SubGhzEdge}, (∃ e ∈ edges, ¬ Admitted e) →
    ∀ p : Parsed, ∃ m, parseLines p (edges.map edgeLine) = .error m
  | e :: es, h, p => by
      rw [List.map_cons, parseLines, parseLine_edge]
      by_cases he : Admitted e
      · rw [if_pos he]
        refine parseLines_edges_error ?_ _
        obtain ⟨x, hx, hbad⟩ := h
        rcases List.mem_cons.mp hx with rfl | hx
        · exact absurd he hbad
        · exact ⟨x, hx, hbad⟩
      · rw [if_neg he]
        exact ⟨_, rfl⟩

/-- What is left of `parse` once the header of a written file is read. -/
theorem parse_toFileString (s : SubGhzSignal) :
    parse s.toFileString
      = match parseLines { frequency := some s.frequency, preset := some s.preset, edges := [] }
          (s.edges.map edgeLine) with
        | .ok p => finish p
        | .error e => .error e := by
  have hlines : lines s.toFileString.toList = s.fileLines := by
    rw [toFileString, String.toList_ofList]
    exact lines_flatMap s.fileLines_line
  have hformat : ∀ p, parseLine p "# format=flip-subghz-raw-v1".toList = .ok p := fun _ => rfl
  rw [parse, hlines, fileLines, parseLines, hformat]
  dsimp only
  rw [parseLines, parseLine_frequency]
  dsimp only
  rw [parseLines, parseLine_preset]

/-- Nothing is read from the file of a signal that cannot be stored. -/
theorem parse_toFileString_error {s : SubGhzSignal} (h : ¬ s.Stored) :
    ∃ m, parse s.toFileString = .error m := by
  rw [parse_toFileString]
  by_cases hall : ∀ e ∈ s.edges, Admitted e
  · obtain hempty : s.edges = [] := by
      by_contra hne
      exact h ⟨hne, hall⟩
    rw [hempty]
    exact ⟨_, rfl⟩
  · obtain ⟨m, hm⟩ := parseLines_edges_error (by simpa using hall)
      { frequency := some s.frequency, preset := some s.preset, edges := [] }
    rw [hm]
    exact ⟨m, rfl⟩

/-- A written file is read back as the signal exactly if the signal has edges,
all of admitted durations. -/
theorem parse_toFileString_iff (s : SubGhzSignal) :
    parse s.toFileString = .ok s ↔ s.edges ≠ [] ∧ ∀ e ∈ s.edges, Admitted e := by
  constructor
  · intro h
    by_contra hbad
    obtain ⟨m, hm⟩ := parse_toFileString_error hbad
    rw [hm] at h
    cases h
  · rintro ⟨hne, hall⟩
    rw [parse_toFileString, parseLines_edges hall]
    show finish { frequency := some s.frequency, preset := some s.preset, edges := s.edges } = _
    rw [finish]
    dsimp only
    rw [if_neg (List.isEmpty_iff.not.mpr hne)]

/-! ## What is read from a file -/

theorem parseDuration_ok {field : List Char} {durationUs : UInt32}
    (h : parseDuration field = .ok durationUs) :
    durationUs ≠ 0 ∧ durationUs ≤ maxSubghzDurationUs := by
  unfold parseDuration at h
  split at h
  · cases h
  · split_ifs at h with hrange
    cases h
    obtain ⟨hzero, hmax⟩ := not_or.mp hrange
    exact ⟨hzero, UInt32.not_lt.mp hmax⟩

theorem parseEdgeLine_ok {p p' : Parsed} {trimmed : List Char}
    (h : parseEdgeLine p trimmed = .ok p') : ∃ e, Admitted e ∧ p'.edges = p.edges ++ [e] := by
  unfold parseEdgeLine at h
  split at h
  · rename_i first second _
    cases hlevel : parseLevel first with
    | error e =>
        rw [hlevel] at h
        cases h
    | ok level =>
        cases hduration : parseDuration second with
        | error e =>
            rw [hlevel, hduration] at h
            cases h
        | ok durationUs =>
            rw [hlevel, hduration] at h
            cases h
            exact ⟨_, parseDuration_ok hduration, rfl⟩
  · cases h

theorem parseDirective_ok {p p' : Parsed} {comment : List Char}
    (h : parseDirective p comment = .ok p') : p'.edges = p.edges := by
  unfold parseDirective at h
  dsimp only at h
  split at h
  · split at h
    · cases h
      rfl
    · cases h
  · split at h
    · split at h
      · cases h
      · split at h
        · cases h
          rfl
        · cases h
    · cases h
      rfl

/-- A line adds an edge that is admitted, or none. -/
theorem parseLine_admitted {p p' : Parsed} {line : List Char} (hp : ∀ e ∈ p.edges, Admitted e)
    (h : parseLine p line = .ok p') : ∀ e ∈ p'.edges, Admitted e := by
  unfold parseLine at h
  split at h
  · cases h
    exact hp
  · rwa [parseDirective_ok h]
  · obtain ⟨e, he, hedges⟩ := parseEdgeLine_ok h
    rw [hedges]
    exact List.forall_mem_append.mpr ⟨hp, List.forall_mem_singleton.mpr he⟩

theorem parseLines_admitted : ∀ {ls : List (List Char)} {p p' : Parsed},
    (∀ e ∈ p.edges, Admitted e) → parseLines p ls = .ok p' → ∀ e ∈ p'.edges, Admitted e
  | [], _, _, hp, h => by
      cases h
      exact hp
  | l :: ls, p, p', hp, h => by
      rw [parseLines] at h
      cases hl : parseLine p l with
      | error e =>
          rw [hl] at h
          cases h
      | ok q =>
          rw [hl] at h
          exact parseLines_admitted (parseLine_admitted hp hl) h

/-- Whatever the text is, a signal that is read from it can be stored. -/
theorem parse_stored {text : String} {s : SubGhzSignal} (h : parse text = .ok s) : s.Stored := by
  unfold parse at h
  split at h
  · rename_i p hp
    have hall := parseLines_admitted (List.forall_mem_nil _) hp
    unfold finish at h
    split at h
    · cases h
    · split at h
      · cases h
      · split_ifs at h with hempty
        cases h
        exact ⟨List.isEmpty_iff.not.mp hempty, hall⟩
  · cases h

/-- **The file of a signal.**  A signal that can be stored is read back from the file
that is written for it, from the file of any other signal nothing is read, and every
signal that is read from any text can be stored, and is read back. -/
theorem file_round_trip :
    (∀ s : SubGhzSignal, s.Stored → parse s.toFileString = .ok s) ∧
    (∀ s : SubGhzSignal, ¬ s.Stored → ∃ e, parse s.toFileString = .error e) ∧
    ∀ (text : String) (s : SubGhzSignal), parse text = .ok s →
      s.Stored ∧ parse s.toFileString = .ok s := by
  refine ⟨fun s hs => (parse_toFileString_iff s).mpr hs, fun s hs => ?_, fun text s h => ?_⟩
  · exact parse_toFileString_error hs
  · have hs := parse_stored h
    exact ⟨hs, (parse_toFileString_iff s).mpr hs⟩

end SubGhzSignal

end FlipLink
