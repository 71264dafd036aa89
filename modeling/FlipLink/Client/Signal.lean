/-
# `FlipLink.Client.Signal` — IR signals on the host

`IrSignal` of `signal.rs`: the file format, and the samples of a capture.  Each
payload of a capture's stream is cut into 4-byte samples by `decode_stream_data`,
and an incomplete one at its end is dropped.

The timings of a file stand twelve to a line, but `parse` does not look at the
lines: below the directives, a text without a `#` is read by its words alone
(`parseLines_of_noHash`).
-/
import FlipLink.Client.Subghz

namespace FlipLink

def defaultFrequency : UInt32 := 38000
def defaultDutyPermille : UInt32 := 330

structure IrSignal where
  frequency : UInt32
  dutyPermille : UInt32
  timings : List UInt64
  deriving DecidableEq, Repr

end FlipLink

namespace FlipLink.IrSignal

open Lib Text

/-- The first sample is the silence before the signal. -/
def fromCapture (raw : List UInt64) : IrSignal where
  frequency := defaultFrequency
  dutyPermille := defaultDutyPermille
  timings := raw.drop 1

/-! ## The file format -/

/-- `parse_directive_u32`, which is `parse_u32` of `subghz.rs` under another name. -/
def parseDirectiveU32 (name : String) (rest : List Char) : Except String UInt32 :=
  SubGhzSignal.parseU32 name rest

/-- A line that begins with `#`; most of them are comments.  The locals of `parse`
are the fields of a signal. -/
def parseDirective (p : IrSignal) (comment : List Char) : Except String IrSignal :=
  let directive := trim comment
  match "freq=".toList.isPrefixOf? directive with
  | some rest =>
      match parseDirectiveU32 "freq" rest with
      | .ok n => .ok { p with frequency := n }
      | .error e => .error e
  | none =>
  match "duty=".toList.isPrefixOf? directive with
  | some rest =>
      match parseDirectiveU32 "duty" rest with
      | .ok n => .ok { p with dutyPermille := n }
      | .error e => .error e
  | none => .ok p

/-- The tokens of a line. -/
def parseTimings : IrSignal → List (List Char) → Except String IrSignal
  | p, [] => .ok p
  | p, token :: tokens =>
      match parseBelow (2 ^ 64) token with
      | some timing => parseTimings { p with timings := p.timings ++ [.ofNat timing] } tokens
      | none =>
          .error ("invalid timing '" ++ String.ofList token ++ "' (expected unsigned integer us)")

/-- One turn of the loop over the lines. -/
def parseLine (p : IrSignal) (line : List Char) : Except String IrSignal :=
  match trim line with
  | [] => .ok p
  | '#' :: comment => parseDirective p comment
  | trimmed => parseTimings p (words trimmed)

def parseLines : IrSignal → List (List Char) → Except String IrSignal
  | p, [] => .ok p
  | p, l :: ls =>
      match parseLine p l with
      | .ok p' => parseLines p' ls
      | .error e => .error e

def parse (text : String) : Except String IrSignal :=
  match parseLines
      { frequency := defaultFrequency, dutyPermille := defaultDutyPermille, timings := [] }
      (lines text.toList) with
  | .ok p => if p.timings.isEmpty then .error "no timings found" else .ok p
  | .error e => .error e

/-- What the loop of `to_file_string` pushes, from the `i`-th timing on. -/
def pushTimings : Nat → List UInt64 → List Char
  | _, [] => []
  | i, timing :: timings =>
      (if i > 0 then [if i % 12 = 0 then '\n' else ' '] else []) ++ digits timing.toNat
        ++ pushTimings (i + 1) timings

def toFileString (s : IrSignal) : String :=
  String.ofList ("# freq=".toList ++ digits s.frequency.toNat ++ "\n# duty=".toList
    ++ digits s.dutyPermille.toNat ++ ['\n'] ++ pushTimings 0 s.timings ++ ['\n'])

/-! ## Request parameters -/

/-- `to_transmit_params`. -/
def toTransmitParams (s : IrSignal) : Value :=
  .map [("frequency", .u64 s.frequency.toUInt64), ("duty_permille", .u64 s.dutyPermille.toUInt64),
    ("timings", .array (s.timings.map .u64))]

/-! ## The samples of a capture -/

/-- `i32::from_le_bytes` and `i32::to_le_bytes`. -/
def ofLeI32 (bs : List UInt8) : Int32 := (ofLe32 bs).toInt32
def leI32 (x : Int32) : List UInt8 := le32 x.toUInt32

@[simp] theorem length_leI32 (x : Int32) : (leI32 x).length = 4 := length_le32 _

/-- `value.max(0) as u64` for the sample in a chunk. -/
def sample (chunk : List UInt8) : UInt64 := UInt64.ofNat (max (ofLeI32 chunk).toInt 0).toNat

/-- `decode_stream_data`: the samples so far with the payload's pushed behind
them, and how many those were. -/
def decodeStreamData (payload : List UInt8) (out : List UInt64) : List UInt64 × Nat :=
  (chunksExact 4 payload).foldl (fun acc chunk => (acc.1 ++ [sample chunk], acc.2 + 1)) (out, 0)

/-- The samples of the payloads of a stream, in order. -/
def decodeStream (payloads : List (List UInt8)) : List UInt64 :=
  payloads.foldl (fun out payload => (decodeStreamData payload out).1) []

theorem foldl_push : ∀ (chunks : List (List UInt8)) (out : List UInt64) (n : Nat),
    chunks.foldl (fun acc chunk => (acc.1 ++ [sample chunk], acc.2 + 1)) (out, n)
      = (out ++ chunks.map sample, n + chunks.length)
  | [], out, n => by rw [List.map_nil, List.append_nil]; rfl
  | c :: cs, out, n => by
      rw [List.foldl_cons, foldl_push cs, List.map_cons, List.length_cons, List.append_assoc,
        Nat.add_assoc, Nat.add_comm 1]
      rfl

theorem decodeStreamData_eq (payload : List UInt8) (out : List UInt64) :
    decodeStreamData payload out
      = (out ++ (chunksExact 4 payload).map sample, (chunksExact 4 payload).length) := by
  rw [decodeStreamData, foldl_push, Nat.zero_add]

/-- Payloads of whole samples decode like the payloads joined. -/
theorem decodeStream_flatten {payloads : List (List UInt8)}
    (h : ∀ payload ∈ payloads, 4 ∣ payload.length) :
    decodeStream payloads = (chunksExact 4 payloads.flatten).map sample := by
  suffices key : ∀ (ps : List (List UInt8)), (∀ payload ∈ ps, 4 ∣ payload.length) →
      ∀ out, ps.foldl (fun out payload => (decodeStreamData payload out).1) out
        = out ++ (chunksExact 4 ps.flatten).map sample by
    exact key payloads h []
  intro ps
  induction ps with
  | nil =>
      intro _ out
      rw [List.foldl_nil, List.flatten_nil, chunksExact_nil, List.map_nil, List.append_nil]
  | cons p ps ih =>
      intro hps out
      obtain ⟨⟨n, hn⟩, hps⟩ := List.forall_mem_cons.mp hps
      rw [List.foldl_cons, ih hps, decodeStreamData_eq, List.flatten_cons,
        chunksExact_append (by decide) n hn, List.map_append, List.append_assoc]

/-- A sample below 2^31 is read back as the number that was written. -/
theorem sample_leI32 {d : UInt32} (hd : d.toNat < 2 ^ 31) :
    sample (leI32 d.toInt32) = UInt64.ofNat d.toNat := by
  have hback : ofLeI32 (leI32 d.toInt32) = d.toInt32 := by
    rw [ofLeI32, leI32, UInt32.toUInt32_toInt32, ofLe32_le32]
  have hint : d.toInt32.toInt = d.toNat := by
    have hnat : d.toInt32 = Int32.ofNat d.toNat := by
      rw [← UInt32.toInt32_ofNat', UInt32.ofNat_toNat]
    rw [hnat, Int32.toInt_ofNat_of_lt hd]
  have hmax : (max (d.toNat : Int) 0).toNat = d.toNat := by omega
  rw [sample, hback, hint, hmax]

/-! ## A file is read back -/

/-- A text as it is stored where lines end with a carriage return and a line feed. -/
def withReturns (text : String) : String := String.ofList (crlf text.toList)

theorem parseTimings_append : ∀ (as bs : List (List Char)) (p : IrSignal),
    parseTimings p (as ++ bs)
      = match parseTimings p as with
        | .ok p' => parseTimings p' bs
        | .error e => .error e
  | [], _, _ => rfl
  | a :: as, bs, p => by
      rw [List.cons_append, parseTimings, parseTimings]
      split
      · exact parseTimings_append as bs _
      · rfl

theorem parseTimings_digits : ∀ (ts : List UInt64) (p : IrSignal),
    parseTimings p (ts.map fun t => digits t.toNat) = .ok { p with timings := p.timings ++ ts }
  | [], p => by rw [List.append_nil]; rfl
  | t :: ts, p => by
      rw [List.map_cons, parseTimings, parseBelow_digits t.toNat_lt]
      dsimp only
      rw [parseTimings_digits ts, UInt64.ofNat_toNat, List.append_assoc, List.singleton_append]

/-- A line that has no `#` in it is its words. -/
theorem parseLine_of_noHash {line : List Char} (h : '#' ∉ line) (p : IrSignal) :
    parseLine p line = parseTimings p (words line) := by
  have hnone : '#' ∉ trim line := fun hc => h (mem_of_mem_trim hc)
  rw [← words_trim line]
  unfold parseLine
  split
  · rename_i heq
    rw [heq]
    rfl
  · rename_i comment heq
    rw [heq] at hnone
    exact absurd List.mem_cons_self hnone
  · rfl

/-- Where there is no `#`, the lines do not matter. -/
theorem parseLines_of_noHash : ∀ {ls : List (List Char)}, (∀ l ∈ ls, '#' ∉ l) →
    ∀ p : IrSignal, parseLines p ls = parseTimings p (ls.flatMap words)
  | [], _, _ => rfl
  | l :: ls, h, p => by
      obtain ⟨hl, hls⟩ := List.forall_mem_cons.mp h
      rw [parseLines, parseLine_of_noHash hl, List.flatMap_cons, parseTimings_append]
      cases parseTimings p (words l) with
      | error e => rfl
      | ok p' => exact parseLines_of_noHash hls p'

/-- Between two timings there is a blank, whatever the place. -/
theorem words_behind : ∀ (ts : List UInt64) (n i : Nat),
    words (digits n ++ pushTimings (i + 1) ts) = digits n :: ts.map fun t => digits t.toNat
  | [], n, i => by
      rw [pushTimings, List.append_nil, (digits_word n).words]
      rfl
  | t :: ts, n, i => by
      have hblank : isWhitespace (if (i + 1) % 12 = 0 then '\n' else ' ') = true := by
        split_ifs <;> rfl
      rw [pushTimings, if_pos (Nat.succ_pos i), List.singleton_append, List.cons_append,
        words_append_blank hblank, (digits_word n).words, words_behind ts t.toNat (i + 1)]
      rfl

theorem words_pushTimings (ts : List UInt64) :
    words (pushTimings 0 ts ++ ['\n']) = ts.map fun t => digits t.toNat := by
  rw [words_append_blank (by decide)]
  cases ts with
  | nil => rfl
  | cons t ts =>
      rw [pushTimings, if_neg (Nat.lt_irrefl 0), List.nil_append, words_behind]
      exact List.append_nil _

/-- What the printer puts into the file below the directives. -/
theorem mem_pushTimings {c : Char} : ∀ {ts : List UInt64} {i : Nat}, c ∈ pushTimings i ts →
    c = '\n' ∨ c = ' ' ∨ c.isDigit = true
  | t :: ts, i, h => by
      rw [pushTimings, List.mem_append, List.mem_append] at h
      rcases h with (h | h) | h
      · split_ifs at h with hi h12
        · exact .inl (List.mem_singleton.mp h)
        · exact .inr (.inl (List.mem_singleton.mp h))
        · cases h
      · exact .inr (.inr (isDigit_of_mem_digits h))
      · exact mem_pushTimings h

theorem freq_word (n : Nat) : Word ("freq=".toList ++ digits n) :=
  Word.append (.of_all (List.cons_ne_nil _ _) (by decide)) (digits_word n)

theorem duty_word (n : Nat) : Word ("duty=".toList ++ digits n) :=
  Word.append (.of_all (List.cons_ne_nil _ _) (by decide)) (digits_word n)

theorem freq_line (n : Nat) : Line ("# freq=".toList ++ digits n) :=
  SubGhzSignal.hash_word.line (freq_word n)

theorem duty_line (n : Nat) : Line ("# duty=".toList ++ digits n) :=
  SubGhzSignal.hash_word.line (duty_word n)

theorem parseLine_freq (p : IrSignal) (n : UInt32) :
    parseLine p ("# freq=".toList ++ digits n.toNat) = .ok { p with frequency := n } := by
  rw [parseLine, (freq_line _).trim]
  show parseDirective p (' ' :: ("freq=".toList ++ digits n.toNat)) = _
  rw [parseDirective, trim_cons_blank, (freq_word _).trimmed.trim]
  show (match SubGhzSignal.parseU32 "freq" (digits n.toNat) with
    | .ok n => Except.ok { p with frequency := n }
    | .error e => .error e) = _
  rw [SubGhzSignal.parseU32_digits]

theorem parseLine_duty (p : IrSignal) (n : UInt32) :
    parseLine p ("# duty=".toList ++ digits n.toNat) = .ok { p with dutyPermille := n } := by
  rw [parseLine, (duty_line _).trim]
  show parseDirective p (' ' :: ("duty=".toList ++ digits n.toNat)) = _
  rw [parseDirective, trim_cons_blank, (duty_word _).trimmed.trim]
  show (match SubGhzSignal.parseU32 "duty" (digits n.toNat) with
    | .ok n => Except.ok { p with dutyPermille := n }
    | .error e => .error e) = _
  rw [SubGhzSignal.parseU32_digits]

/-- A written file: two directives, and the timings. -/
theorem lines_toFileString (s : IrSignal) :
    lines s.toFileString.toList
      = ("# freq=".toList ++ digits s.frequency.toNat)
        :: ("# duty=".toList ++ digits s.dutyPermille.toNat)
        :: lines (pushTimings 0 s.timings ++ ['\n']) := by
  have htext : s.toFileString.toList
      = ("# freq=".toList ++ digits s.frequency.toNat) ++ '\n'
        :: (("# duty=".toList ++ digits s.dutyPermille.toNat) ++ '\n'
        :: (pushTimings 0 s.timings ++ ['\n'])) := by
    have hduty : "\n# duty=".toList = '\n' :: "# duty=".toList := rfl
    unfold toFileString
    rw [String.toList_ofList, hduty]
    simp only [List.append_assoc, List.cons_append, List.nil_append]
  rw [htext, (freq_line _).lines_cons, (duty_line _).lines_cons]

theorem notMem_return (s : IrSignal) : '\r' ∉ s.toFileString.toList := by
  have hdigits : ∀ n, '\r' ∉ digits n := fun n h =>
    absurd (isDigit_of_mem_digits h) (by decide)
  have hpush : '\r' ∉ pushTimings 0 s.timings := by
    intro h
    rcases mem_pushTimings h with h | h | h <;> exact absurd h (by decide)
  have hfreq : '\r' ∉ "# freq=".toList := by decide
  have hduty : '\r' ∉ "\n# duty=".toList := by decide
  have hfeed : '\r' ∉ ['\n'] := by decide
  unfold toFileString
  rw [String.toList_ofList]
  simp only [List.mem_append, not_or]
  exact ⟨⟨⟨⟨⟨⟨hfreq, hdigits _⟩, hduty⟩, hdigits _⟩, hfeed⟩, hpush⟩, hfeed⟩

theorem parse_withReturns (s : IrSignal) :
    parse (withReturns s.toFileString) = parse s.toFileString := by
  rw [parse, withReturns, String.toList_ofList, lines_crlf s.notMem_return, parse]

theorem parse_toFileString (s : IrSignal) :
    parse s.toFileString = if s.timings.isEmpty then .error "no timings found" else .ok s := by
  have hhash : ∀ l ∈ lines (pushTimings 0 s.timings ++ ['\n']), '#' ∉ l := by
    intro l hl h
    rcases List.mem_append.mp (mem_of_mem_lines hl h) with h | h
    · rcases mem_pushTimings h with h | h | h <;> exact absurd h (by decide)
    · exact absurd h (by decide)
  rw [parse, lines_toFileString, parseLines, parseLine_freq]
  dsimp only
  rw [parseLines, parseLine_duty]
  dsimp only
  rw [parseLines_of_noHash hhash, words_lines, words_pushTimings, parseTimings_digits]
  rfl

/-- What is read from a text has timings. -/
theorem parse_timings {text : String} {s : IrSignal} (h : parse text = .ok s) : s.timings ≠ [] := by
  unfold parse at h
  split at h
  · split_ifs at h with hempty
    cases h
    exact List.isEmpty_iff.not.mp hempty
  · cases h

/-- **The file of an IR signal.**  A signal that has timings is read back from the
file that is written for it, with either kind of line ending, and one that has none
is refused; so whatever is read from any text is read back when it is written. -/
theorem ir_file_round_trip :
    (∀ s : IrSignal, s.timings ≠ [] →
      parse s.toFileString = .ok s ∧ parse (withReturns s.toFileString) = .ok s) ∧
    (∀ s : IrSignal, s.timings = [] → ∃ e, parse s.toFileString = .error e) ∧
    ∀ (text : String) (s : IrSignal), parse text = .ok s → parse s.toFileString = .ok s := by
  have hread : ∀ s : IrSignal, s.timings ≠ [] → parse s.toFileString = .ok s := by
    intro s hs
    rw [parse_toFileString, if_neg (List.isEmpty_iff.not.mpr hs)]
  refine ⟨fun s hs => ⟨hread s hs, ?_⟩, fun s hs => ?_, fun text s h => hread s (parse_timings h)⟩
  · rw [parse_withReturns, hread s hs]
  · rw [parse_toFileString, hs]
    exact ⟨_, rfl⟩

/-- Twelve timings to a line. -/
example : (toFileString ⟨38000, 330, (List.range 13).map fun n => .ofNat (n + 1)⟩)
    = "# freq=38000\n# duty=330\n1 2 3 4 5 6 7 8 9 10 11 12\n13\n" := by decide +kernel

end FlipLink.IrSignal
