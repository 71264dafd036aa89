/-
# `Lib.Text` — lines, words, numbers and bytes

What `str` does with a line-oriented text, on lists of characters: `lines`,
`trim`, `split_whitespace`, `split_once`, `parse` of a number, `from_str_radix` of an
unsigned one, and slicing at bytes, after their documentation.  A line ends at a line
feed, and a carriage return before it goes with it; whitespace is Unicode's
`White_Space`.

Everything about `words` follows from one equation: the words of a text split at
a blank (`words_append_blank`).  So the words of the lines are the words of the
text, and neither `trim` nor a carriage return makes a difference.  Of a text that
a program has written, a line of non-blank words joined by single blanks is read
back as its words, and the digits of a number as the number.  And what is parsed as a
number was written as its digits, or padded (`parseBelow_eq_iff`, `parseSigned_eq_iff`).
-/
import Mathlib.Data.List.DropRight

namespace Lib.Text

/-! ## Whitespace -/

/-- Unicode's `White_Space`. -/
def isWhitespace (c : Char) : Bool :=
  (9 ≤ c.toNat && c.toNat ≤ 13) || c.toNat = 0x20 || c.toNat = 0x85 || c.toNat = 0xA0 ||
    c.toNat = 0x1680 || (0x2000 ≤ c.toNat && c.toNat ≤ 0x200A) || c.toNat = 0x2028 ||
    c.toNat = 0x2029 || c.toNat = 0x202F || c.toNat = 0x205F || c.toNat = 0x3000

/-- A word: not empty, and no whitespace in it. -/
structure Word (w : List Char) : Prop where
  ne_nil : w ≠ []
  solid : ∀ c ∈ w, isWhitespace c = false

/-- A word that can be looked through. -/
theorem Word.of_all {w : List Char} (hne : w ≠ [])
    (h : w.all (fun c => !isWhitespace c) = true) : Word w where
  ne_nil := hne
  solid c hc := by simpa only [Bool.not_eq_true'] using List.all_eq_true.mp h c hc

theorem Word.append {v w : List Char} (hv : Word v) (hw : Word w) : Word (v ++ w) where
  ne_nil := List.append_ne_nil_of_left_ne_nil hv.ne_nil w
  solid c hc := (List.mem_append.mp hc).elim (hv.solid c) (hw.solid c)

/-- Neither ends of a text are whitespace. -/
structure Trimmed (cs : List Char) : Prop where
  ne_nil : cs ≠ []
  head : isWhitespace (cs.head ne_nil) = false
  last : isWhitespace (cs.getLast ne_nil) = false

theorem Word.trimmed {w : List Char} (h : Word w) : Trimmed w where
  ne_nil := h.ne_nil
  head := h.solid _ (List.head_mem _)
  last := h.solid _ (List.getLast_mem _)

/-- What is between two trimmed texts does not matter. -/
theorem Trimmed.append {v w : List Char} (hv : Trimmed v) (hw : Trimmed w) (mid : List Char) :
    Trimmed (v ++ mid ++ w) where
  ne_nil := List.append_ne_nil_of_right_ne_nil _ hw.ne_nil
  head := by
    have hne : v ++ mid ≠ [] := List.append_ne_nil_of_left_ne_nil hv.ne_nil mid
    rw [List.head_append_of_ne_nil hne, List.head_append_of_ne_nil hv.ne_nil]
    exact hv.head
  last := by
    rw [List.getLast_append_of_ne_nil _ hw.ne_nil]
    exact hw.last

/-- `trim`. -/
def trim (cs : List Char) : List Char := (cs.dropWhile isWhitespace).rdropWhile isWhitespace

theorem Trimmed.trim {cs : List Char} (h : Trimmed cs) : trim cs = cs := by
  have hfront : cs.dropWhile isWhitespace = cs := by
    cases cs with
    | nil => rfl
    | cons c cs => exact List.dropWhile_cons_of_neg (Bool.eq_false_iff.mp h.head)
  rw [Text.trim, hfront]
  exact List.rdropWhile_eq_self_iff.mpr fun hne => Bool.eq_false_iff.mp h.last

theorem trim_cons_blank (cs : List Char) : trim (' ' :: cs) = trim cs := rfl

/-! ## Words -/

/-- The words behind the characters of one that has begun. -/
def wordsFrom (w : List Char) : List Char → List (List Char)
  | [] => if w.isEmpty then [] else [w]
  | c :: cs =>
      if isWhitespace c then if w.isEmpty then wordsFrom [] cs else w :: wordsFrom [] cs
      else wordsFrom (w ++ [c]) cs

/-- `split_whitespace`. -/
def words (cs : List Char) : List (List Char) := wordsFrom [] cs

theorem wordsFrom_append : ∀ {v : List Char}, (∀ c ∈ v, isWhitespace c = false) →
    ∀ (w cs : List Char), wordsFrom w (v ++ cs) = wordsFrom (w ++ v) cs
  | [], _, w, cs => by rw [List.append_nil, List.nil_append]
  | c :: v, h, w, cs => by
      obtain ⟨hc, hv⟩ := List.forall_mem_cons.mp h
      rw [List.cons_append, wordsFrom, if_neg (Bool.eq_false_iff.mp hc), wordsFrom_append hv,
        List.append_assoc, List.singleton_append]

theorem wordsFrom_append_blank {c : Char} (hc : isWhitespace c = true) :
    ∀ a w b : List Char, wordsFrom w (a ++ c :: b) = wordsFrom w a ++ words b
  | [], w, b => by
      rw [List.nil_append]
      show (if isWhitespace c then if w.isEmpty then words b else w :: words b else _)
        = (if w.isEmpty then [] else [w]) ++ words b
      rw [if_pos hc]
      split_ifs <;> rfl
  | x :: a, w, b => by
      rw [List.cons_append, wordsFrom, wordsFrom]
      split_ifs
      · exact wordsFrom_append_blank hc a [] b
      · rw [wordsFrom_append_blank hc a [] b, List.cons_append]
      · exact wordsFrom_append_blank hc a (w ++ [x]) b

/-- The words split at a blank. -/
theorem words_append_blank {c : Char} (hc : isWhitespace c = true) (a b : List Char) :
    words (a ++ c :: b) = words a ++ words b :=
  wordsFrom_append_blank hc a [] b

theorem words_cons_blank {c : Char} (hc : isWhitespace c = true) (b : List Char) :
    words (c :: b) = words b :=
  words_append_blank hc [] b

/-- Blanks in front make no word. -/
theorem words_blanks_append : ∀ {v : List Char}, (∀ c ∈ v, isWhitespace c = true) →
    ∀ cs, words (v ++ cs) = words cs
  | [], _, _ => rfl
  | c :: v, h, cs => by
      obtain ⟨hc, hv⟩ := List.forall_mem_cons.mp h
      rw [List.cons_append, words_cons_blank hc, words_blanks_append hv]

theorem words_append_blanks {v : List Char} (h : ∀ c ∈ v, isWhitespace c = true)
    (cs : List Char) : words (cs ++ v) = words cs := by
  cases v with
  | nil => rw [List.append_nil]
  | cons c v =>
      obtain ⟨hc, hv⟩ := List.forall_mem_cons.mp h
      have hnone := words_blanks_append hv []
      rw [List.append_nil] at hnone
      rw [words_append_blank hc, hnone]
      exact List.append_nil _

/-- What `trim` takes away is no part of a word. -/
theorem words_trim (cs : List Char) : words (trim cs) = words cs := by
  have hfront : words (cs.dropWhile isWhitespace) = words cs := by
    conv_rhs => rw [← List.takeWhile_append_dropWhile (p := isWhitespace) (l := cs)]
    exact (words_blanks_append (fun _ hc => List.mem_takeWhile_imp hc) _).symm
  rw [trim, ← hfront]
  generalize cs.dropWhile isWhitespace = ds
  conv_rhs => rw [← @List.rdropWhile_append_rtakeWhile _ isWhitespace ds]
  exact (words_append_blanks (fun _ hc => List.mem_rtakeWhile_imp hc) _).symm

theorem mem_of_mem_trim {cs : List Char} {c : Char} (h : c ∈ trim cs) : c ∈ cs :=
  (List.dropWhile_sublist _).subset ((List.rdropWhile_prefix _ _).sublist.subset h)

theorem Word.words {w : List Char} (h : Word w) : words w = [w] := by
  have := wordsFrom_append h.solid [] []
  rw [List.append_nil, List.nil_append] at this
  rw [Text.words, this, wordsFrom, if_neg]
  rw [List.isEmpty_iff]
  exact h.ne_nil

/-- A word, a blank and the rest. -/
theorem Word.words_cons {w : List Char} (h : Word w) (cs : List Char) :
    Text.words (w ++ ' ' :: cs) = w :: Text.words cs := by
  rw [words_append_blank (by decide), h.words, List.singleton_append]

/-! ## Lines -/

/-- A line without the carriage return before its line feed. -/
def stripReturn (l : List Char) : List Char :=
  if l.getLast? = some '\r' then l.dropLast else l

/-- The lines behind the characters of one that has begun. -/
def linesFrom (l : List Char) : List Char → List (List Char)
  | [] => if l.isEmpty then [] else [l]
  | c :: cs => if c = '\n' then stripReturn l :: linesFrom [] cs else linesFrom (l ++ [c]) cs

/-- `lines`. -/
def lines (cs : List Char) : List (List Char) := linesFrom [] cs

theorem linesFrom_append : ∀ {v : List Char}, '\n' ∉ v →
    ∀ (l cs : List Char), linesFrom l (v ++ cs) = linesFrom (l ++ v) cs
  | [], _, l, cs => by rw [List.append_nil, List.nil_append]
  | c :: v, h, l, cs => by
      obtain ⟨hc, hv⟩ := not_or.mp (List.mem_cons.not.mp h)
      rw [List.cons_append, linesFrom, if_neg (Ne.symm hc), linesFrom_append hv,
        List.append_assoc, List.singleton_append]

/-- A written line: no line feed in it, and it is trimmed. -/
structure Line (l : List Char) : Prop extends Trimmed l where
  feed : '\n' ∉ l

theorem Line.lines_cons {l : List Char} (h : Line l) (cs : List Char) :
    lines (l ++ '\n' :: cs) = l :: lines cs := by
  have hreturn : l.getLast? ≠ some '\r' := by
    rw [List.getLast?_eq_getLast_of_ne_nil h.ne_nil]
    intro heq
    have hlast := h.last
    rw [Option.some.inj heq] at hlast
    exact absurd hlast (by decide)
  rw [lines, linesFrom_append h.feed, List.nil_append, linesFrom, if_pos rfl, stripReturn,
    if_neg hreturn]
  rfl

/-- The lines of a written text. -/
theorem lines_flatMap : ∀ {ls : List (List Char)}, (∀ l ∈ ls, Line l) →
    lines (ls.flatMap (· ++ ['\n'])) = ls
  | [], _ => rfl
  | l :: ls, h => by
      obtain ⟨hl, hls⟩ := List.forall_mem_cons.mp h
      rw [List.flatMap_cons, List.append_assoc, List.singleton_append, hl.lines_cons,
        lines_flatMap hls]

theorem words_stripReturn (l : List Char) : words (stripReturn l) = words l := by
  rw [stripReturn]
  split_ifs with h
  · conv_rhs => rw [← List.dropLast_append_getLast? _ h]
    exact (words_append_blanks (fun _ hc => by rw [List.mem_singleton.mp hc]; rfl) _).symm
  · rfl

theorem words_linesFrom : ∀ cs l : List Char, (linesFrom l cs).flatMap words = words (l ++ cs)
  | [], [] => rfl
  | [], x :: l => by
      rw [List.append_nil]
      exact List.append_nil _
  | c :: cs, l => by
      rw [linesFrom]
      split_ifs with hc
      · rw [List.flatMap_cons, words_stripReturn, words_linesFrom cs [], hc,
          words_append_blank (by decide), List.nil_append]
      · rw [words_linesFrom cs (l ++ [c]), List.append_assoc, List.singleton_append]

/-- The words of the lines are the words of the text. -/
theorem words_lines (cs : List Char) : (lines cs).flatMap words = words cs := words_linesFrom cs []

theorem mem_of_mem_linesFrom {c : Char} : ∀ {cs l₀ l : List Char},
    l ∈ linesFrom l₀ cs → c ∈ l → c ∈ l₀ ++ cs
  | [], l₀, l, hl, hc => by
      rw [linesFrom] at hl
      split_ifs at hl with hempty
      · cases hl
      · rw [List.append_nil, ← List.mem_singleton.mp hl]
        exact hc
  | x :: cs, l₀, l, hl, hc => by
      rw [linesFrom] at hl
      split_ifs at hl with hx
      · rcases List.mem_cons.mp hl with rfl | hl
        · refine List.mem_append_left _ ?_
          rw [stripReturn] at hc
          split_ifs at hc
          · exact List.dropLast_subset _ hc
          · exact hc
        · exact List.mem_append_right _ (List.mem_cons_of_mem _ (mem_of_mem_linesFrom hl hc))
      · have := mem_of_mem_linesFrom hl hc
        rwa [List.append_assoc, List.singleton_append] at this

theorem mem_of_mem_lines {cs l : List Char} {c : Char} (hl : l ∈ lines cs) (hc : c ∈ l) :
    c ∈ cs :=
  mem_of_mem_linesFrom hl hc

/-- A carriage return before every line feed. -/
def crlf (cs : List Char) : List Char :=
  cs.flatMap fun c => if c = '\n' then ['\r', '\n'] else [c]

theorem stripReturn_of_notMem {l : List Char} (h : '\r' ∉ l) : stripReturn l = l :=
  if_neg fun hlast => h (List.mem_of_getLast? hlast)

theorem linesFrom_crlf : ∀ {cs l : List Char}, '\r' ∉ l → '\r' ∉ cs →
    linesFrom l (crlf cs) = linesFrom l cs
  | [], _, _, _ => rfl
  | c :: cs, l, hl, h => by
      obtain ⟨hc, hcs⟩ := not_or.mp (List.mem_cons.not.mp h)
      rw [crlf, List.flatMap_cons]
      split_ifs with hfeed
      · have hstrip : stripReturn (l ++ ['\r']) = l := by
          rw [stripReturn, if_pos List.getLast?_concat, List.dropLast_concat]
        show linesFrom l ('\r' :: '\n' :: crlf cs) = _
        rw [linesFrom, if_neg (by decide), linesFrom, if_pos rfl, hstrip, linesFrom, if_pos hfeed,
          stripReturn_of_notMem hl, linesFrom_crlf List.not_mem_nil hcs]
      · show linesFrom l (c :: crlf cs) = _
        have hl' : '\r' ∉ l ++ [c] := by
          rw [List.mem_append, List.mem_singleton, not_or]
          exact ⟨hl, hc⟩
        rw [linesFrom, if_neg hfeed, linesFrom_crlf hl' hcs, linesFrom, if_neg hfeed]

/-- The lines are the same with either ending. -/
theorem lines_crlf {cs : List Char} (h : '\r' ∉ cs) : lines (crlf cs) = lines cs :=
  linesFrom_crlf List.not_mem_nil h

theorem Word.feed {w : List Char} (h : Word w) : '\n' ∉ w :=
  fun hc => absurd (h.solid _ hc) (by decide)

/-- Two words with a blank between them. -/
theorem Word.line {v w : List Char} (hv : Word v) (hw : Word w) : Line (v ++ [' '] ++ w) where
  toTrimmed := hv.trimmed.append hw.trimmed _
  feed := by
    simp only [List.mem_append, List.mem_singleton, not_or]
    exact ⟨⟨hv.feed, by decide⟩, hw.feed⟩

/-! ## Numbers -/

/-- A number as its decimal digits. -/
def digits (n : Nat) : List Char := Nat.toDigits 10 n

/-- The characters behind a plus sign. -/
def dropPlus : List Char → List Char
  | '+' :: cs => cs
  | cs => cs

/-- `parse` of an unsigned number below `bound`: digits, and a plus sign may
stand before them. -/
def parseBelow (bound : Nat) (cs : List Char) : Option Nat :=
  let ds := dropPlus cs
  if ds ≠ [] ∧ ds.all Char.isDigit ∧ Nat.ofDigitChars 10 ds 0 < bound then
    some (Nat.ofDigitChars 10 ds 0)
  else none

theorem isDigit_of_mem_digits {n : Nat} {c : Char} (h : c ∈ digits n) : c.isDigit = true :=
  Nat.isDigit_of_mem_toDigits (by decide) (by decide) h

theorem isWhitespace_of_isDigit {c : Char} (h : c.isDigit = true) : isWhitespace c = false := by
  have h₁ : 48 ≤ c.toNat ∧ c.toNat ≤ 57 := by
    rw [Char.isDigit, Bool.and_eq_true, decide_eq_true_eq, decide_eq_true_eq] at h
    exact h
  simp only [isWhitespace, Bool.or_eq_false_iff, Bool.and_eq_false_iff, decide_eq_false_iff_not]
  omega

theorem digits_word (n : Nat) : Word (digits n) where
  ne_nil := Nat.toDigits_ne_nil
  solid _ hc := isWhitespace_of_isDigit (isDigit_of_mem_digits hc)

theorem parseBelow_digits {bound n : Nat} (h : n < bound) :
    parseBelow bound (digits n) = some n := by
  have hall : (digits n).all Char.isDigit = true :=
    List.all_eq_true.mpr fun _ => isDigit_of_mem_digits
  have hval : Nat.ofDigitChars 10 (digits n) 0 = n := Nat.ofDigitChars_ten_toDigits
  have hplus : dropPlus (digits n) = digits n := by
    unfold dropPlus
    split
    · rename_i ds heq
      have hmem : '+' ∈ digits n := by rw [heq]; exact List.mem_cons_self
      exact absurd (isDigit_of_mem_digits hmem) (by decide)
    · rfl
  rw [parseBelow, hplus]
  rw [hval, if_pos ⟨Nat.toDigits_ne_nil, hall, h⟩]

/-! ## Hexadecimal digits -/

/-- `0` to `9`, `A` to `F` and `a` to `f`. -/
def isHexDigit (c : Char) : Bool :=
  (48 ≤ c.toNat && c.toNat ≤ 57) || (65 ≤ c.toNat && c.toNat ≤ 70) ||
    (97 ≤ c.toNat && c.toNat ≤ 102)

def hexValue (c : Char) : Nat :=
  if c.toNat ≤ 57 then c.toNat - 48
  else if c.toNat ≤ 70 then c.toNat - 55
  else c.toNat - 87

/-- The number of which `n` are the leading digits and the characters the rest. -/
def ofHexFrom (n : Nat) : List Char → Option Nat
  | [] => some n
  | c :: cs => if isHexDigit c then ofHexFrom (16 * n + hexValue c) cs else none

/-- `from_str_radix(_, 16)` of an unsigned number below `bound`: as in `parseBelow`, a
plus sign may stand before the digits. -/
def parseHexBelow (bound : Nat) (cs : List Char) : Option Nat :=
  let ds := dropPlus cs
  if ds = [] then none else (ofHexFrom 0 ds).filter (· < bound)

/-- The numbers that the digits are two by two. -/
def pairValues : List Char → List UInt8
  | hi :: lo :: cs => .ofNat (16 * hexValue hi + hexValue lo) :: pairValues cs
  | _ => []

/-- The two digits of a byte, in lower case. -/
def hexDigits (b : UInt8) : List Char := [(b.toNat / 16).digitChar, (b.toNat % 16).digitChar]

theorem isHexDigit_iff {c : Char} : isHexDigit c = true ↔
    48 ≤ c.toNat ∧ c.toNat ≤ 57 ∨ 65 ≤ c.toNat ∧ c.toNat ≤ 70 ∨ 97 ≤ c.toNat ∧ c.toNat ≤ 102 := by
  simp only [isHexDigit, Bool.or_eq_true, Bool.and_eq_true, decide_eq_true_eq, or_assoc]

theorem isWhitespace_of_isHexDigit {c : Char} (h : isHexDigit c = true) :
    isWhitespace c = false := by
  rw [isHexDigit_iff] at h
  simp only [isWhitespace, Bool.or_eq_false_iff, Bool.and_eq_false_iff, decide_eq_false_iff_not]
  omega

theorem hexValue_lt {c : Char} (h : isHexDigit c = true) : hexValue c < 16 := by
  rw [isHexDigit_iff] at h
  rw [hexValue]
  split_ifs <;> omega

/-- Two digits are a byte. -/
theorem parseHexBelow_pair {hi lo : Char} (hhi : isHexDigit hi = true)
    (hlo : isHexDigit lo = true) :
    parseHexBelow 256 [hi, lo] = some (16 * hexValue hi + hexValue lo) := by
  have hplus : dropPlus [hi, lo] = [hi, lo] := by
    unfold dropPlus
    split
    · rename_i heq
      rw [(List.cons.inj heq).1] at hhi
      exact absurd hhi (by decide)
    · rfl
  have hbound : 16 * hexValue hi + hexValue lo < 256 := by
    have := hexValue_lt hhi
    have := hexValue_lt hlo
    omega
  rw [parseHexBelow, hplus]
  rw [if_neg (List.cons_ne_nil _ _), ofHexFrom, if_pos hhi, ofHexFrom, if_pos hlo, ofHexFrom,
    Nat.mul_zero, Nat.zero_add, Option.filter_some, if_pos (decide_eq_true hbound)]

theorem length_pairValues : ∀ cs : List Char, (pairValues cs).length = cs.length / 2
  | [] => rfl
  | [_] => by
      rw [pairValues]
      · exact (by decide : 0 = 1 / 2)
      · intro _ _ _ h
        cases h
  | _ :: _ :: cs => by
      rw [pairValues, List.length_cons, length_pairValues cs, List.length_cons, List.length_cons]
      omega

theorem length_flatMap_hexDigits : ∀ bytes : List UInt8,
    (bytes.flatMap hexDigits).length = 2 * bytes.length
  | [] => rfl
  | b :: bytes => by
      have hb : (hexDigits b).length = 2 := rfl
      rw [List.flatMap_cons, List.length_append, hb, length_flatMap_hexDigits bytes,
        List.length_cons]
      omega

theorem toNat_toLower (c : Char) :
    c.toLower.toNat = if 65 ≤ c.toNat ∧ c.toNat ≤ 90 then c.toNat + 32 else c.toNat := by
  have hiff : (c.val ≥ 'A'.val ∧ c.val ≤ 'Z'.val) ↔ (65 ≤ c.toNat ∧ c.toNat ≤ 90) := Iff.rfl
  delta Char.toLower
  split_ifs with h h' h'
  · show (c.val + 32).toNat = c.toNat + 32
    rw [UInt32.toNat_add]
    show (c.toNat + 32) % 2 ^ 32 = _
    omega
  · exact absurd (hiff.mp h) h'
  · exact absurd (hiff.mpr h') h
  · rfl

theorem toNat_digitChar : ∀ n < 16, n.digitChar.toNat = if n < 10 then 48 + n else 87 + n := by
  decide

/-- A digit in either case. -/
theorem hexValue_of_toLower {c : Char} {n : Nat} (hn : n < 16) (h : c.toLower = n.digitChar) :
    isHexDigit c = true ∧ hexValue c = n := by
  have hnat := congrArg Char.toNat h
  rw [toNat_toLower, toNat_digitChar n hn] at hnat
  rw [isHexDigit_iff, hexValue]
  constructor
  · split_ifs at hnat <;> omega
  · split_ifs at hnat ⊢ <;> omega

/-- Bytes that are written in digits of either case. -/
theorem pairValues_of_toLower : ∀ {bytes : List UInt8} {cs : List Char},
    cs.map Char.toLower = bytes.flatMap hexDigits →
      (∀ c ∈ cs, isHexDigit c = true) ∧ pairValues cs = bytes
  | [], cs, h => by
      rw [List.map_eq_nil_iff.mp h]
      exact ⟨List.forall_mem_nil _, rfl⟩
  | b :: bytes, [], h => by cases h
  | b :: bytes, [_], h => by
      have hlen := congrArg List.length h
      rw [List.length_map, length_flatMap_hexDigits, List.length_cons, List.length_cons,
        List.length_nil] at hlen
      omega
  | b :: bytes, hi :: lo :: cs, h => by
      obtain ⟨hhi, h⟩ := List.cons.inj h
      obtain ⟨hlo, h⟩ := List.cons.inj h
      have hb := b.toNat_lt
      obtain ⟨hdigitHi, hvalueHi⟩ := hexValue_of_toLower (show b.toNat / 16 < 16 by omega) hhi
      obtain ⟨hdigitLo, hvalueLo⟩ := hexValue_of_toLower (Nat.mod_lt _ (by decide)) hlo
      obtain ⟨hall, hvalues⟩ := pairValues_of_toLower h
      constructor
      · exact List.forall_mem_cons.mpr ⟨hdigitHi, List.forall_mem_cons.mpr ⟨hdigitLo, hall⟩⟩
      · rw [pairValues, hvalueHi, hvalueLo, hvalues, Nat.div_add_mod, UInt8.ofNat_toNat]

/-! ## Bytes -/

/-- `as_bytes`. -/
def asBytes (cs : List Char) : List UInt8 := cs.flatMap String.utf8EncodeChar

/-- What is behind the first `n` bytes, if a character begins there. -/
def dropBytes : Nat → List Char → Option (List Char)
  | 0, cs => some cs
  | _ + 1, [] => none
  | n + 1, c :: cs => if c.utf8Size ≤ n + 1 then dropBytes (n + 1 - c.utf8Size) cs else none

/-- The characters of the first `n` bytes, if one ends there. -/
def takeBytes : Nat → List Char → Option (List Char)
  | 0, _ => some []
  | _ + 1, [] => none
  | n + 1, c :: cs =>
      if c.utf8Size ≤ n + 1 then (takeBytes (n + 1 - c.utf8Size) cs).map (c :: ·) else none

/-- A slice from one byte to another.  There is none, and slicing panics, unless both
are in the text and at the edge of a character. -/
def sliceBytes (cs : List Char) (i j : Nat) : Option (List Char) :=
  if i ≤ j then (dropBytes i cs).bind (takeBytes (j - i)) else none

theorem utf8Size_of_lt {c : Char} (h : c.toNat < 128) : c.utf8Size = 1 := by
  rw [Char.utf8Size_eq_one_iff, UInt32.le_iff_toNat_le]
  exact Nat.le_of_lt_succ h

/-- Where every character is a byte, a byte is a character. -/
theorem length_asBytes : ∀ {cs : List Char}, (∀ c ∈ cs, c.toNat < 128) →
    (asBytes cs).length = cs.length
  | [], _ => rfl
  | c :: cs, h => by
      obtain ⟨hc, hcs⟩ := List.forall_mem_cons.mp h
      rw [asBytes, List.flatMap_cons, List.length_append, String.length_utf8EncodeChar,
        utf8Size_of_lt hc, List.length_cons, Nat.add_comm]
      congr 1
      exact length_asBytes hcs

theorem dropBytes_ascii : ∀ {n : Nat} {cs : List Char}, (∀ c ∈ cs, c.toNat < 128) →
    n ≤ cs.length → dropBytes n cs = some (cs.drop n)
  | 0, _, _, _ => by rw [dropBytes, List.drop_zero]
  | n + 1, c :: cs, h, hn => by
      obtain ⟨hc, hcs⟩ := List.forall_mem_cons.mp h
      rw [dropBytes, utf8Size_of_lt hc, if_pos (Nat.le_add_left 1 n), Nat.add_sub_cancel,
        dropBytes_ascii hcs (Nat.le_of_succ_le_succ hn), List.drop_succ_cons]

theorem takeBytes_ascii : ∀ {n : Nat} {cs : List Char}, (∀ c ∈ cs, c.toNat < 128) →
    n ≤ cs.length → takeBytes n cs = some (cs.take n)
  | 0, _, _, _ => by rw [takeBytes, List.take_zero]
  | n + 1, c :: cs, h, hn => by
      obtain ⟨hc, hcs⟩ := List.forall_mem_cons.mp h
      rw [takeBytes, utf8Size_of_lt hc, if_pos (Nat.le_add_left 1 n), Nat.add_sub_cancel,
        takeBytes_ascii hcs (Nat.le_of_succ_le_succ hn), Option.map_some, List.take_succ_cons]

theorem sliceBytes_ascii {cs : List Char} (h : ∀ c ∈ cs, c.toNat < 128) {i n : Nat}
    (hn : i + n ≤ cs.length) : sliceBytes cs i (i + n) = some ((cs.drop i).take n) := by
  have hrest : ∀ c ∈ cs.drop i, c.toNat < 128 := fun c hc => h c (List.mem_of_mem_drop hc)
  rw [sliceBytes, if_pos (Nat.le_add_right i n), dropBytes_ascii h (by omega), Option.bind_some,
    Nat.add_sub_cancel_left, takeBytes_ascii hrest]
  rw [List.length_drop]
  omega

/-- A character that is no single byte has a byte above the single ones. -/
theorem exists_high_byte {c : Char} (h : 128 ≤ c.toNat) :
    ∃ b ∈ String.utf8EncodeChar c, 128 ≤ b.toNat := by
  have hlast : 128 ≤ (UInt8.ofNat (c.val.toNat % 64 + 128)).toNat := by
    rw [UInt8.toNat_ofNat']
    omega
  have hmany : ¬ c.val.toNat ≤ 0x7f := Nat.not_le.mpr h
  refine ⟨UInt8.ofNat (c.val.toNat % 64 + 128), ?_, hlast⟩
  rw [String.utf8EncodeChar, if_neg hmany]
  split_ifs <;> simp only [List.mem_cons, true_or, or_true]

/-! ## Signed numbers -/

/-- A number of either sign as its decimal digits. -/
def signedDigits (i : Int) : List Char :=
  if i < 0 then '-' :: digits i.natAbs else digits i.natAbs

theorem signedDigits_natCast (n : Nat) : signedDigits n = digits n := by
  rw [signedDigits, if_neg (by omega), Int.natAbs_natCast]

/-- `parse` of a signed number from `-bound` to below `bound`. -/
def parseSigned (bound : Nat) : List Char → Option Int
  | '-' :: ds =>
      if ds ≠ [] ∧ ds.all Char.isDigit ∧ Nat.ofDigitChars 10 ds 0 ≤ bound then
        some (-(Nat.ofDigitChars 10 ds 0 : Nat))
      else none
  | cs => (parseBelow bound cs).map Int.ofNat

/-- A plus sign, or a zero that stands before the number. -/
def Padded : List Char → Prop
  | '+' :: _ | '-' :: '0' :: _ | '0' :: _ :: _ => True
  | _ => False

theorem parseBelow_lt {bound n : Nat} {cs : List Char} (h : parseBelow bound cs = some n) :
    n < bound := by
  unfold parseBelow at h
  dsimp only at h
  split_ifs at h with hds
  cases h
  exact hds.2.2

theorem isDigit_iff {c : Char} : c.isDigit = true ↔ 48 ≤ c.toNat ∧ c.toNat ≤ 57 := by
  rw [Char.isDigit, Bool.and_eq_true, decide_eq_true_eq, decide_eq_true_eq]
  exact Iff.rfl

theorem digitChar_of_isDigit {c : Char} (h : c.isDigit = true) :
    (c.toNat - 48).digitChar = c := by
  obtain ⟨hlow, hhigh⟩ := isDigit_iff.mp h
  have htoNat := toNat_digitChar (c.toNat - 48) (by omega)
  rw [if_pos (by omega)] at htoNat
  exact Char.toNat_inj.mp (by omega)

/-- Only the digits of zero begin with one. -/
theorem eq_zero_of_digits {n : Nat} {ds : List Char} (h : digits n = '0' :: ds) : n = 0 := by
  induction n using Nat.strongRecOn generalizing ds with
  | ind n ih =>
      rcases Nat.lt_or_ge n 10 with hlt | hge
      · rw [digits, Nat.toDigits_of_lt_base hlt] at h
        exact Nat.digitChar_eq_zero.mp (List.cons.inj h).1
      · rw [digits, Nat.toDigits_of_base_le (by decide) hge] at h
        cases hq : digits (n / 10) with
        | nil => exact absurd hq Nat.toDigits_ne_nil
        | cons c cs =>
            have hq' : Nat.toDigits 10 (n / 10) = c :: cs := hq
            rw [hq', List.cons_append] at h
            have hzero := ih (n / 10) (by omega) (hq.trans (by rw [(List.cons.inj h).1]))
            omega

/-- Digits without a zero in front are those of the number that they are. -/
theorem digits_ofDigitChars {ds : List Char} (hne : ds ≠ []) (hall : ds.all Char.isDigit = true)
    (hfront : ∀ cs, ds = '0' :: cs → cs = []) : digits (Nat.ofDigitChars 10 ds 0) = ds := by
  induction ds using List.reverseRecOn with
  | nil => exact absurd rfl hne
  | append_singleton ds c ih =>
      rw [List.all_append, Bool.and_eq_true] at hall
      obtain ⟨hds, hc⟩ := hall
      have hc : c.isDigit = true := by simpa using hc
      obtain ⟨hlow, hhigh⟩ := isDigit_iff.mp hc
      have hvalue : Nat.ofDigitChars 10 (ds ++ [c]) 0
          = 10 * Nat.ofDigitChars 10 ds 0 + (c.toNat - 48) := by
        rw [Nat.ofDigitChars_append, Nat.ofDigitChars_cons, Nat.ofDigitChars_nil]
        rfl
      have hlast : digits (c.toNat - 48) = [c] := by
        rw [digits, Nat.toDigits_of_lt_base (by omega), digitChar_of_isDigit hc]
      rw [hvalue]
      cases ds with
      | nil => rwa [Nat.ofDigitChars_nil, Nat.mul_zero, Nat.zero_add, List.nil_append]
      | cons a as =>
          have hfront' : ∀ cs, a :: as = '0' :: cs → cs = [] := by
            intro cs heq
            have := hfront (cs ++ [c]) (by rw [heq]; rfl)
            exact absurd this (List.append_ne_nil_of_right_ne_nil cs (List.cons_ne_nil c []))
          have ih := ih (List.cons_ne_nil a as) hds hfront'
          have hpos : 0 < Nat.ofDigitChars 10 (a :: as) 0 := by
            refine Nat.pos_of_ne_zero fun hzero => ?_
            rw [hzero] at ih
            have hcons : '0' :: [] = a :: as := ih
            have := hfront (as ++ [c]) (by rw [← (List.cons.inj hcons).1]; rfl)
            exact absurd this (List.append_ne_nil_of_right_ne_nil as (List.cons_ne_nil c []))
          rw [digits, ← Nat.toDigits_append_toDigits (by decide) hpos (by omega)]
          exact congrArg₂ (· ++ ·) ih hlast

theorem digits_ne_cons {n : Nat} {c : Char} {ds : List Char} (hc : c.isDigit = false) :
    digits n ≠ c :: ds := by
  intro h
  have hmem : c ∈ digits n := h ▸ List.mem_cons_self
  exact Bool.false_ne_true (hc.symm.trans (isDigit_of_mem_digits hmem))

theorem not_padded_digits (n : Nat) : ¬ Padded (digits n) := by
  intro h
  unfold Padded at h
  split at h
  · rename_i heq
    exact digits_ne_cons (by decide) heq
  · rename_i heq
    exact digits_ne_cons (by decide) heq
  · rename_i heq
    have hzero := eq_zero_of_digits heq
    rw [hzero] at heq
    exact absurd (List.cons.inj heq).2.symm (List.cons_ne_nil _ _)
  · exact h

theorem not_padded_signedDigits (i : Int) : ¬ Padded (signedDigits i) := by
  unfold signedDigits
  split_ifs with hneg
  · intro h
    cases hds : digits i.natAbs with
    | nil => exact absurd hds Nat.toDigits_ne_nil
    | cons c ds =>
        rw [hds] at h
        unfold Padded at h
        split at h
        · rename_i heq
          exact absurd (List.cons.inj heq).1 (by decide)
        · rename_i heq
          rw [(List.cons.inj heq).2] at hds
          have := eq_zero_of_digits hds
          omega
        · rename_i heq
          exact absurd (List.cons.inj heq).1 (by decide)
        · exact h
  · exact not_padded_digits _

/-- What is parsed is the digits of the number, or padded. -/
theorem parseBelow_eq_iff {bound n : Nat} {cs : List Char} (h : parseBelow bound cs = some n) :
    cs = signedDigits n ↔ ¬ Padded cs := by
  refine ⟨fun heq => heq ▸ not_padded_signedDigits _, fun hpad => ?_⟩
  have hplus : dropPlus cs = cs := by
    unfold dropPlus
    split
    · exact absurd trivial hpad
    · rfl
  unfold parseBelow at h
  rw [hplus] at h
  dsimp only at h
  split_ifs at h with hds
  cases h
  have hfront : ∀ ds, cs = '0' :: ds → ds = [] := by
    intro ds heq
    cases ds with
    | nil => rfl
    | cons d ds => exact absurd (heq ▸ trivial) hpad
  rw [signedDigits_natCast, digits_ofDigitChars hds.1 hds.2.1 hfront]

theorem parseSigned_eq_iff {bound : Nat} {i : Int} {cs : List Char}
    (h : parseSigned bound cs = some i) : cs = signedDigits i ↔ ¬ Padded cs := by
  unfold parseSigned at h
  split at h
  · rename_i ds
    split_ifs at h with hds
    cases h
    obtain ⟨hne, hall, -⟩ := hds
    refine ⟨fun heq => heq ▸ not_padded_signedDigits _, fun hpad => ?_⟩
    have hfront : ∀ cs, ds ≠ '0' :: cs := fun cs heq => absurd (heq ▸ trivial) hpad
    have hdigits := digits_ofDigitChars hne hall fun cs heq => absurd heq (hfront cs)
    have hpos : Nat.ofDigitChars 10 ds 0 ≠ 0 := by
      intro hzero
      rw [hzero] at hdigits
      exact hfront [] hdigits.symm
    rw [signedDigits, if_pos (by omega), Int.natAbs_neg, Int.natAbs_natCast, hdigits]
  · obtain ⟨n, hn, rfl⟩ := Option.map_eq_some_iff.mp h
    exact parseBelow_eq_iff hn

theorem parseSigned_bounds {bound : Nat} {i : Int} {cs : List Char}
    (h : parseSigned bound cs = some i) : -bound ≤ i ∧ i < max bound 1 := by
  unfold parseSigned at h
  split at h
  · split_ifs at h with hds
    cases h
    omega
  · obtain ⟨n, hn, rfl⟩ := Option.map_eq_some_iff.mp h
    have := parseBelow_lt hn
    simp only [Int.ofNat_eq_natCast]
    omega

theorem parseBelow_signedDigits {bound : Nat} {i : Int} (hi : i < bound) :
    parseBelow bound (signedDigits i) = if i < 0 then none else some i.natAbs := by
  unfold signedDigits
  split_ifs with hneg
  · rfl
  · exact parseBelow_digits (by omega)

theorem parseSigned_neg {bound : Nat} {i : Int} (hneg : i < 0) (hlow : -bound ≤ i) :
    parseSigned bound (signedDigits i) = some i := by
  have hall : (digits i.natAbs).all Char.isDigit = true :=
    List.all_eq_true.mpr fun _ => isDigit_of_mem_digits
  have hvalue : Nat.ofDigitChars 10 (digits i.natAbs) 0 = i.natAbs :=
    Nat.ofDigitChars_ten_toDigits
  rw [signedDigits, if_pos hneg, parseSigned, hvalue,
    if_pos ⟨Nat.toDigits_ne_nil, hall, by omega⟩]
  congr 1
  omega

/-! ## Splitting once -/

/-- `split_once`. -/
def splitOnce (c : Char) : List Char → Option (List Char × List Char)
  | [] => none
  | x :: cs => if x = c then some ([], cs) else (splitOnce c cs).map fun p => (x :: p.1, p.2)

/-- It splits at the first one. -/
theorem splitOnce_append {c : Char} (v : List Char) : ∀ {k : List Char}, c ∉ k →
    splitOnce c (k ++ c :: v) = some (k, v)
  | [], _ => if_pos rfl
  | x :: k, h => by
      obtain ⟨hx, hk⟩ := not_or.mp (List.mem_cons.not.mp h)
      rw [List.cons_append, splitOnce, if_neg (Ne.symm hx), splitOnce_append v hk]
      rfl

theorem splitOnce_eq_none {c : Char} : ∀ {cs : List Char}, c ∉ cs → splitOnce c cs = none
  | [], _ => rfl
  | x :: cs, h => by
      obtain ⟨hx, hcs⟩ := not_or.mp (List.mem_cons.not.mp h)
      rw [splitOnce, if_neg (Ne.symm hx), splitOnce_eq_none hcs]
      rfl

theorem splitOnce_of_mem {c : Char} {cs : List Char} (h : c ∈ cs) :
    ∃ k v, splitOnce c cs = some (k, v) := by
  obtain ⟨k, v, rfl, hk⟩ := List.eq_append_cons_of_mem h
  exact ⟨k, v, splitOnce_append v hk⟩

end Lib.Text
