import Mathlib.Data.List.DropRight
import Mathlib.Data.List.TakeWhile

/-! # Python text and bytes

    The `str` and `bytes` operations of Python, on lists of characters and of bytes.

    * `strip`, `split`, `join` follow `str.strip()`, `str.split()` and `" ".join`, with
      `isSpace` the characters Python strips and splits at.
    * `upper` follows `str.upper()` wherever it puts characters of ASCII: on the letters
      of ASCII, and on the characters whose capitals are or contain such letters; every
      other character is left as it is.
    * `encodeAscii` is `str.encode("ascii")`, undefined where Python raises
      `UnicodeEncodeError`; `decodeAscii` is `bytes.decode("ascii", errors="replace")`,
      which turns every byte outside ASCII into U+FFFD. -/

namespace PyText

/-- A Python `str`. -/
abbrev Str := List Char

/-- A Python `bytes`. -/
abbrev Bytes := List UInt8

/-- The characters `str.strip()` and `str.split()` take for whitespace. -/
def isSpace (c : Char) : Bool :=
  let n := c.toNat
  (9 ≤ n && n ≤ 13) || (28 ≤ n && n ≤ 32) || n == 0x85 || n == 0xA0 || n == 0x1680
    || (0x2000 ≤ n && n ≤ 0x200A) || n == 0x2028 || n == 0x2029 || n == 0x202F
    || n == 0x205F || n == 0x3000

/-- `s.strip()`. -/
def strip (s : Str) : Str := (s.dropWhile isSpace).rdropWhile isSpace

/-- `s.split()`. -/
def split (s : Str) : List Str := (s.splitOnP isSpace).filter fun w => !w.isEmpty

/-- `" ".join(ws)`. -/
def join (ws : List Str) : Str := [' '].intercalate ws

/-- The capitals, outside ASCII, of which a part is in ASCII. -/
def capitals : List (Char × Str) :=
  [('ß', "SS".toList), ('ı', "I".toList), ('ŉ', "ʼN".toList), ('ſ', "S".toList),
   ('ǰ', "J\u030C".toList), ('ẖ', "H\u0331".toList), ('ẗ', "T\u0308".toList),
   ('ẘ', "W\u030A".toList), ('ẙ', "Y\u030A".toList), ('ẚ', "Aʾ".toList),
   ('ﬀ', "FF".toList), ('ﬁ', "FI".toList), ('ﬂ', "FL".toList), ('ﬃ', "FFI".toList),
   ('ﬄ', "FFL".toList), ('ﬅ', "ST".toList), ('ﬆ', "ST".toList)]

/-- `str.upper` of one character; some letters become several. -/
def upperChar (c : Char) : Str :=
  if 'a' ≤ c && c ≤ 'z' then [Char.ofNat (c.toNat - 32)] else (capitals.lookup c).getD [c]

/-- `s.upper()`. -/
def upper (s : Str) : Str := s.flatMap upperChar

/-- `s.isascii()`. -/
def isAscii (s : Str) : Bool := s.all fun c => c.toNat < 128

/-- `s.encode("ascii")`, where it does not raise. -/
def encodeAscii (s : Str) : Option Bytes :=
  if isAscii s then some (s.map fun c => UInt8.ofNat c.toNat) else none

/-- The byte of `"\n"`. -/
def newline : UInt8 := 10

/-- `b.decode("ascii", errors="replace")`. -/
def decodeAscii (b : Bytes) : Str :=
  b.map fun x => if x < 128 then Char.ofNat x.toNat else Char.ofNat 0xFFFD

/-! ## Stripping -/

/-- Stripping takes characters away, and moves none. -/
theorem strip_sublist (s : Str) : (strip s).Sublist s := by
  have h : strip s <+: s.dropWhile isSpace := List.rdropWhile_prefix isSpace _
  exact h.sublist.trans (List.dropWhile_sublist isSpace)

/-- A character of the stripped text is one of the text. -/
theorem mem_of_mem_strip {s : Str} {c : Char} (h : c ∈ strip s) : c ∈ s :=
  (strip_sublist s).subset h

/-- A character that is no whitespace is not stripped off. -/
theorem mem_strip_of_mem {s : Str} {c : Char} (h : c ∈ s) (hc : isSpace c = false) :
    c ∈ strip s := by
  have hdrop : ∀ l : Str, c ∈ l → c ∈ l.dropWhile isSpace := by
    intro l hl
    rw [← List.takeWhile_append_dropWhile (p := isSpace) (l := l)] at hl
    obtain hl | hl := List.mem_append.mp hl
    · exact absurd (List.mem_takeWhile_imp hl) (by rw [hc]; exact Bool.false_ne_true)
    · exact hl
  exact List.mem_reverse.mpr (hdrop _ (List.mem_reverse.mpr (hdrop s h)))

/-- A trailing whitespace character is stripped off. -/
theorem strip_concat (s : Str) {c : Char} (hc : isSpace c = true) :
    strip (s ++ [c]) = strip s := by
  rw [strip, strip, List.dropWhile_append]
  by_cases hs : (s.dropWhile isSpace).isEmpty = true
  · rw [if_pos hs, List.isEmpty_iff.mp hs, List.dropWhile_cons_of_pos hc]
    rfl
  · rw [if_neg hs]
    exact List.rdropWhile_concat_pos isSpace _ c hc

/-- Whitespace in front and behind is stripped off. -/
theorem strip_pad {a b : Str} (ha : ∀ c ∈ a, isSpace c = true) (hb : ∀ c ∈ b, isSpace c = true)
    (s : Str) : strip (a ++ s ++ b) = strip s := by
  have hback : strip (s ++ b) = strip s := by
    induction b using List.reverseRecOn with
    | nil => rw [List.append_nil]
    | append_singleton b c ih =>
        rw [← List.append_assoc, strip_concat _ (hb c (by simp)),
          ih fun d hd => hb d (List.mem_append_left _ hd)]
  rw [← hback, strip, strip, List.append_assoc, List.dropWhile_append_of_pos ha]

theorem isSpace_newline : isSpace '\n' = true := by decide

/-- What stripping takes off is whitespace, in front and behind. -/
theorem strip_spec (s : Str) : ∃ front back : Str, s = front ++ strip s ++ back ∧
    (∀ c ∈ front, isSpace c = true) ∧ ∀ c ∈ back, isSpace c = true := by
  refine ⟨s.takeWhile isSpace, (s.dropWhile isSpace).rtakeWhile isSpace, ?_, ?_, ?_⟩
  · rw [strip, List.append_assoc, List.rdropWhile_append_rtakeWhile,
      List.takeWhile_append_dropWhile]
  · intro c hc
    exact List.mem_takeWhile_imp hc
  · intro c hc
    exact List.mem_rtakeWhile_imp hc

/-- Nothing is taken off in front of a character that is no whitespace. -/
theorem strip_cons {c : Char} (s : Str) (hc : isSpace c = false) :
    ∃ rest back : Str, strip (c :: s) = c :: rest ∧ s = rest ++ back ∧
      ∀ d ∈ back, isSpace d = true := by
  obtain ⟨front, back, hs, hfront, hback⟩ := strip_spec (c :: s)
  have hspace : ∀ d, d = c → isSpace d = true → False := by
    rintro d rfl h
    rw [hc] at h
    cases h
  cases front with
  | cons d front =>
      obtain ⟨rfl, -⟩ := List.cons.inj hs
      exact (hspace c rfl (hfront c (List.mem_cons_self ..))).elim
  | nil =>
      cases hstrip : strip (c :: s) with
      | nil =>
          rw [hstrip, List.append_nil, List.nil_append] at hs
          exact (hspace c rfl (hback c (hs ▸ List.mem_cons_self ..))).elim
      | cons d rest =>
          rw [hstrip] at hs
          obtain ⟨rfl, hrest⟩ := List.cons.inj hs
          exact ⟨rest, back, rfl, hrest, hback⟩

/-! ## Upper case -/

theorem upper_append (s t : Str) : upper (s ++ t) = upper s ++ upper t := List.flatMap_append

theorem upper_cons (c : Char) (s : Str) : upper (c :: s) = upperChar c ++ upper s := rfl

/-- Whitespace has no capitals. -/
theorem upperChar_of_isSpace {c : Char} (hc : isSpace c = true) : upperChar c = [c] := by
  have hsmall : ('a' ≤ c && c ≤ 'z') = false := by
    by_contra h
    obtain ⟨hlow, hhigh⟩ := (Bool.and_eq_true ..).mp (Bool.not_eq_false _ ▸ h)
    have hlow' : 97 ≤ c.toNat := of_decide_eq_true hlow
    have hhigh' : c.toNat ≤ 122 := of_decide_eq_true hhigh
    simp only [isSpace, Bool.or_eq_true, Bool.and_eq_true, decide_eq_true_eq, beq_iff_eq] at hc
    omega
  have hlookup : capitals.lookup c = none := by
    rw [List.lookup_eq_none_iff]
    intro p hp
    have hall : ∀ p ∈ capitals, isSpace p.1 = false := by decide
    have hne : c ≠ p.1 := by
      rintro rfl
      rw [hall p hp] at hc
      cases hc
    simpa using hne
  rw [upperChar, hsmall, hlookup]
  rfl

/-- Whitespace has no capitals. -/
theorem upper_of_isSpace {s : Str} (hs : ∀ c ∈ s, isSpace c = true) : upper s = s := by
  induction s with
  | nil => rfl
  | cons c s ih =>
      rw [upper_cons, upperChar_of_isSpace (hs c (List.mem_cons_self ..)),
        ih fun d hd => hs d (List.mem_cons_of_mem _ hd)]
      rfl

/-- Stripping reaches into a text no further than to a word in front of it. -/
theorem strip_append {s : Str} (hne : s ≠ []) (hs : ∀ c ∈ s, isSpace c = false) (t : Str) :
    strip (s ++ t) = s ++ t.rdropWhile isSpace := by
  have hfront : ∀ {u : Str}, u ≠ [] → (∀ c ∈ u, isSpace c = false) → ∀ v : Str,
      (u ++ v).dropWhile isSpace = u ++ v := by
    intro u hu huc v
    cases u with
    | nil => exact absurd rfl hu
    | cons c u =>
        have hc : ¬ isSpace c = true := by simp [huc c (List.mem_cons_self ..)]
        exact List.dropWhile_cons_of_neg hc
  have hback : (t.reverse ++ s.reverse).dropWhile isSpace
      = t.reverse.dropWhile isSpace ++ s.reverse := by
    have hrev : s.reverse.dropWhile isSpace = s.reverse := by
      simpa using hfront (u := s.reverse) (by simpa using hne) (by simpa using hs) []
    rw [List.dropWhile_append, hrev]
    split
    · next hempty => rw [List.isEmpty_iff.mp hempty, List.nil_append]
    · rfl
  rw [strip, hfront hne hs, List.rdropWhile, List.reverse_append, hback, List.reverse_append,
    List.reverse_reverse]
  rfl

/-! ## Words in texts -/

/-- A word does not start in a text without its first letter. -/
theorem infix_append_left {a : Char} {w s t : Str} (h : a ∉ s) :
    (a :: w) <:+: s ++ t ↔ (a :: w) <:+: t := by
  constructor
  · rintro ⟨x, y, hxy⟩
    rw [List.append_assoc] at hxy
    obtain ⟨front, hs, ht⟩ | ⟨rest, -, ht⟩ := List.append_eq_append_iff.mp hxy
    · cases front with
      | nil => exact ⟨[], y, by simpa using ht⟩
      | cons b front =>
          obtain ⟨rfl, -⟩ := List.cons.inj ht
          exact absurd (hs ▸ List.mem_append_right x (List.mem_cons_self ..)) h
    · exact ⟨rest, y, by rw [ht, List.append_assoc]⟩
  · intro hw
    exact hw.trans (List.suffix_append s t).isInfix

/-- Nor does it end in a text without its last letter. -/
theorem infix_append_right {a : Char} {w s t : Str} (h : a ∉ t) :
    (w ++ [a]) <:+: s ++ t ↔ (w ++ [a]) <:+: s := by
  have hback : (a :: w.reverse) <:+: t.reverse ++ s.reverse ↔ (a :: w.reverse) <:+: s.reverse :=
    infix_append_left (by simpa using h)
  constructor
  · intro hw
    exact List.reverse_infix.mp (by simpa using hback.mp (by simpa using List.reverse_infix.mpr hw))
  · intro hw
    exact hw.trans (List.prefix_append s t).isInfix

/-! ## ASCII -/

/-- Each character is below 128. -/
theorem isAscii_iff {s : Str} : isAscii s = true ↔ ∀ c ∈ s, c.toNat < 128 := by
  simp [isAscii]

theorem isAscii_append (s t : Str) : isAscii (s ++ t) = (isAscii s && isAscii t) := by
  simp [isAscii]

theorem isAscii_strip {s : Str} (h : isAscii s = true) : isAscii (strip s) = true :=
  isAscii_iff.mpr fun c hc => isAscii_iff.mp h c (mem_of_mem_strip hc)

/-- A text that is not ASCII cannot be encoded, and no other. -/
theorem encodeAscii_eq_none {s : Str} : encodeAscii s = none ↔ isAscii s = false := by
  unfold encodeAscii
  split <;> simp_all

/-- What can be encoded is ASCII. -/
theorem encodeAscii_isSome {s : Str} : (encodeAscii s).isSome = isAscii s := by
  unfold encodeAscii
  split <;> simp_all

/-- Encoding keeps newlines: they stand at the same places. -/
theorem newline_mem_encodeAscii {s : Str} {b : Bytes} (h : encodeAscii s = some b) :
    newline ∈ b ↔ '\n' ∈ s := by
  unfold encodeAscii at h
  split at h
  · next hs =>
      obtain rfl := Option.some.inj h
      rw [List.mem_map]
      constructor
      · rintro ⟨c, hc, he⟩
        have hlt : c.toNat < 128 := isAscii_iff.mp hs c hc
        have hn : c.toNat = 10 := by
          have hb := congrArg UInt8.toNat he
          rw [UInt8.toNat_ofNat_of_lt' (Nat.lt_trans hlt (by decide))] at hb
          exact hb
        obtain rfl : c = '\n' := Char.toNat_inj.mp hn
        exact hc
      · exact fun hc => ⟨'\n', hc, rfl⟩
  · exact nomatch h

theorem encodeAscii_append {s t : Str} {a b : Bytes} (hs : encodeAscii s = some a)
    (ht : encodeAscii t = some b) : encodeAscii (s ++ t) = some (a ++ b) := by
  unfold encodeAscii at hs ht ⊢
  split at hs
  · split at ht
    · next h₁ h₂ =>
        rw [if_pos (by rw [isAscii_append, h₁, h₂]; rfl), List.map_append,
          Option.some.inj hs, Option.some.inj ht]
    · exact nomatch ht
  · exact nomatch hs

/-! ## Decoding -/

theorem decodeAscii_append (a b : Bytes) :
    decodeAscii (a ++ b) = decodeAscii a ++ decodeAscii b := List.map_append

/-- The code of an ASCII byte's character is the byte. -/
theorem toNat_ofNat_of_lt {x : UInt8} (hx : x < 128) : (Char.ofNat x.toNat).toNat = x.toNat := by
  have hn : x.toNat < 128 := hx
  have hv : x.toNat.isValidChar := Or.inl (by omega)
  unfold Char.ofNat
  rw [dif_pos hv]
  rfl

/-- A decoded byte is ASCII exactly if the byte was. -/
theorem isAscii_decodeAscii (b : Bytes) :
    isAscii (decodeAscii b) = b.all fun x => x < 128 := by
  induction b with
  | nil => rfl
  | cons x xs ih =>
      show ((decide _) && isAscii (decodeAscii xs)) = (decide _ && xs.all _)
      rw [ih]
      by_cases hx : x < 128
      · have hn : x.toNat < 128 := hx
        simp [hx, toNat_ofNat_of_lt hx, hn]
      · simp [hx]

/-- Stripping an answer hides none of its bytes outside ASCII. -/
theorem isAscii_strip_decodeAscii (b : Bytes) :
    isAscii (strip (decodeAscii b)) = b.all fun x => x < 128 := by
  rw [← isAscii_decodeAscii]
  cases hb : isAscii (decodeAscii b) with
  | true => exact isAscii_strip hb
  | false =>
      rw [isAscii_decodeAscii, List.all_eq_false] at hb
      obtain ⟨x, hx, hge⟩ := hb
      have hmem : Char.ofNat 0xFFFD ∈ decodeAscii b :=
        List.mem_map.mpr ⟨x, hx, if_neg fun hlt => hge (decide_eq_true hlt)⟩
      have hstrip := mem_strip_of_mem hmem (by decide)
      by_contra htrue
      rw [Bool.not_eq_false] at htrue
      exact absurd (isAscii_iff.mp htrue _ hstrip) (by decide)

/-- Decoding invents no newline. -/
theorem newline_mem_decodeAscii {b : Bytes} : '\n' ∈ decodeAscii b ↔ newline ∈ b := by
  rw [decodeAscii, List.mem_map]
  constructor
  · rintro ⟨x, hx, he⟩
    by_cases hlt : x < 128
    · rw [if_pos hlt] at he
      have h10 : x.toNat = 10 := by rw [← toNat_ofNat_of_lt hlt, he]; rfl
      obtain rfl : x = newline := UInt8.toNat_inj.mp h10
      exact hx
    · rw [if_neg hlt] at he
      exact absurd he (by decide)
  · exact fun h => ⟨newline, h, by decide⟩

end PyText
