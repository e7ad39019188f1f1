import XdmServer.Commands
import XdmServer.Words

/-! # The grammar of the responses

    `Function.from_device` and `Rate.from_device` take a response apart with `strip`,
    `upper` and `split`.  The grammar says which texts name a function or a rate, without a
    word on how they are read; `fromDevice_grammar` says that the parsers accept exactly
    these, for every text that the transport can return. -/

namespace Responses

open PyText Commands Words
open List (Forall₂)

/-! ## The grammar -/

/-- Optional whitespace. -/
def blank : Language Char := spaces isSpace

/-- The letters of `v`, each as a capital or not. -/
def anyCase (v : Str) : Language Char := {w | w.map Char.toLower = v.map Char.toLower}

/-- A double quote. -/
def quote : Language Char := {['"']}

/-- A body, bare or in one pair of double quotes, with whitespace around it. -/
def response (body : Language Char) : Language Char :=
  blank * (body + quote * body * quote) * blank

/-- The words that name a function, with whitespace around and between them. -/
def functionBody (f : Function) : Language Char :=
  blank * separated isSpace ((split f.value).map anyCase) * blank

/-- The replies of the meter that name a function. -/
def functionResponse (f : Function) : Language Char := response (functionBody f)

/-- Within the quotes of a rate there is no whitespace. -/
def rateResponse (r : Rate) : Language Char := response (anyCase r.value)

/-- A text that the transport can return: ASCII, and U+FFFD for any other byte. -/
def Received (s : Str) : Prop := ∀ c ∈ s, c.toNat < 128 ∨ c = Char.ofNat 0xFFFD

/-- What the transport decodes can be received. -/
theorem received_decodeAscii (b : Bytes) : Received (strip (decodeAscii b)) := by
  intro c hc
  obtain ⟨x, -, rfl⟩ := List.mem_map.mp (mem_of_mem_strip hc)
  by_cases hx : x < 128
  · rw [if_pos hx]
    exact .inl (by rw [toNat_ofNat_of_lt hx]; exact hx)
  · rw [if_neg hx]
    exact .inr rfl

/-! ## Unquoting -/

/-- What is unquoted is the stripped text, or stands between its quotes. -/
theorem unquote_cases (raw : Str) :
    unquote raw = strip raw ∨ strip raw = ['"'] ++ unquote raw ++ ['"'] := by
  simp only [unquote]
  split
  · next h =>
      obtain ⟨hlength, hhead, hlast⟩ := h
      obtain ⟨t, ht⟩ := List.head?_eq_some_iff.mp hhead
      rw [ht] at hlength hlast ⊢
      have hne : t ≠ [] := by
        rintro rfl
        exact absurd hlength (by decide)
      rw [List.getLast?_cons_of_ne_nil hne] at hlast
      refine .inr ?_
      rw [List.tail_cons, List.append_assoc, List.dropLast_append_getLast? _ hlast]
      rfl
  · exact .inl rfl

theorem unquote_bare {raw : Str} (h : '"' ∉ raw) : unquote raw = strip raw := by
  obtain hbare | hquoted := unquote_cases raw
  · exact hbare
  · have hmem : '"' ∈ strip raw := by rw [hquoted]; simp
    exact absurd (mem_of_mem_strip hmem) h

/-- One pair of quotes goes with the whitespace around it. -/
theorem unquote_quoted {raw s : Str} (h : strip raw = ['"'] ++ s ++ ['"']) : unquote raw = s := by
  simp only [unquote]
  rw [h, if_pos ⟨by simp, rfl, List.getLast?_concat ..⟩]
  simp

/-- Unquoting adds nothing to a text. -/
theorem unquote_subset (raw : Str) : unquote raw ⊆ raw := by
  intro c hc
  refine mem_of_mem_strip ?_
  obtain hbare | hquoted := unquote_cases raw
  · rwa [← hbare]
  · rw [hquoted]
    exact List.mem_append_left _ (List.mem_append_right _ hc)

/-- **The quotes and the whitespace around a body**, for bodies without quotes that stay
    bodies when they are stripped. -/
theorem unquote_mem_iff {body : Language Char} (hstrip : ∀ s ∈ body, strip s ∈ body)
    (hquote : ∀ s ∈ body, '"' ∉ s) {raw : Str} :
    unquote raw ∈ body ↔ raw ∈ response body := by
  constructor
  · intro h
    obtain ⟨front, back, hraw, hfront, hback⟩ := strip_spec raw
    have hmiddle : strip raw ∈ body + quote * body * quote := by
      obtain hbare | hquoted := unquote_cases raw
      · exact .inl (hbare ▸ h)
      · rw [hquoted]
        exact .inr (Language.append_mem_mul (Language.append_mem_mul rfl h) rfl)
    rw [hraw]
    exact Language.append_mem_mul (Language.append_mem_mul hfront hmiddle) hback
  · intro h
    obtain ⟨front, hfront, b, hb, rfl⟩ := Language.mem_mul.mp h
    obtain ⟨a, ha, m, hm, rfl⟩ := Language.mem_mul.mp hfront
    obtain hm | hm := hm
    · have hspace : ∀ s ∈ blank, '"' ∉ s := fun s hs hc => absurd (hs _ hc) (by decide)
      have hbare : '"' ∉ a ++ m ++ b := by
        simp only [List.mem_append, hspace a ha, hspace b hb, hquote m hm, or_self,
          not_false_eq_true]
      rw [unquote_bare hbare, strip_pad ha hb]
      exact hstrip m hm
    · obtain ⟨opened, hopened, q, rfl, rfl⟩ := Language.mem_mul.mp hm
      obtain ⟨q, rfl, s, hs, rfl⟩ := Language.mem_mul.mp hopened
      have hself : strip (['"'] ++ s ++ ['"']) = ['"'] ++ s ++ ['"'] := by
        have hspace : isSpace '"' = false := by decide
        rw [List.append_assoc, strip_append (by simp) (by simpa using hspace),
          List.rdropWhile_concat_neg _ _ _ (by decide)]
      rwa [unquote_quoted ((strip_pad ha hb _).trans hself)]

/-! ## Letters -/

/-- The letters of the device strings. -/
def CAPITALS : Str := "ABCDEFGHIJKLMNOPQRSTUVWXYZ".toList

/-- What can be received has one capital for each letter. -/
theorem upperChar_received {c : Char} (hc : c.toNat < 128 ∨ c = Char.ofNat 0xFFFD) :
    upperChar c = [c.toUpper] := by
  have hascii : ∀ n < 128, upperChar (Char.ofNat n) = [(Char.ofNat n).toUpper] := by
    decide +kernel
  obtain hc | rfl := hc
  · rw [← Char.ofNat_toNat c]
    exact hascii c.toNat hc
  · decide

/-- `toLower` moves the capitals of ASCII, and nothing else. -/
theorem toNat_toLower (c : Char) : c.toLower.toNat =
    if 65 ≤ c.toNat ∧ c.toNat ≤ 90 then c.toNat + 32 else c.toNat := by
  have hiff : c.val ≥ 'A'.val ∧ c.val ≤ 'Z'.val ↔ 65 ≤ c.toNat ∧ c.toNat ≤ 90 := Iff.rfl
  by_cases h : 65 ≤ c.toNat ∧ c.toNat ≤ 90
  · have hlower : c.toLower = _ := dif_pos (hiff.mpr h)
    have hadd : c.toLower.toNat = (c.val + 32).toNat := by
      rw [hlower]
      rfl
    have hval : c.val.toNat = c.toNat := rfl
    have hstep : (32 : UInt32).toNat = 32 := rfl
    rw [if_pos h, hadd, UInt32.toNat_add]
    omega
  · have hsame : c.toLower = c := dif_neg fun h' => h (hiff.mp h')
    rw [if_neg h, hsame]

/-- `toUpper` moves the small letters of ASCII, and nothing else. -/
theorem toNat_toUpper (c : Char) : c.toUpper.toNat =
    if 97 ≤ c.toNat ∧ c.toNat ≤ 122 then c.toNat - 32 else c.toNat := by
  have hiff : c.val ≥ 'a'.val ∧ c.val ≤ 'z'.val ↔ 97 ≤ c.toNat ∧ c.toNat ≤ 122 := Iff.rfl
  by_cases h : 97 ≤ c.toNat ∧ c.toNat ≤ 122
  · have hupper : c.toUpper = _ := dif_pos (hiff.mpr h)
    have hadd : c.toUpper.toNat = (c.val + ('A'.val - 'a'.val)).toNat := by
      rw [hupper]
      rfl
    have hval : c.val.toNat = c.toNat := rfl
    have hstep : ('A'.val - 'a'.val : UInt32).toNat = 2 ^ 32 - 32 := by decide
    rw [if_pos h, hadd, UInt32.toNat_add]
    omega
  · have hsame : c.toUpper = c := dif_neg fun h' => h (hiff.mp h')
    rw [if_neg h, hsame]

/-- A capital is the one of a character exactly if the two have the same small letter. -/
theorem toUpper_eq_iff {c d : Char} (hd : d ∈ CAPITALS) :
    c.toUpper = d ↔ c.toLower = d.toLower := by
  have hall : CAPITALS.all (fun d => 65 ≤ d.toNat ∧ d.toNat ≤ 90) = true := by decide
  have hrange : 65 ≤ d.toNat ∧ d.toNat ≤ 90 := of_decide_eq_true (List.all_eq_true.mp hall d hd)
  rw [← Char.toNat_inj, ← Char.toNat_inj, toNat_toUpper, toNat_toLower, toNat_toLower,
    if_pos hrange]
  split <;> split <;> omega

/-- **Upper case against any case.** -/
theorem upper_eq_iff {w v : Str} (hw : Received w) (hv : v ⊆ CAPITALS) :
    upper w = v ↔ w ∈ anyCase v := by
  show upper w = v ↔ w.map Char.toLower = v.map Char.toLower
  induction w generalizing v with
  | nil => cases v <;> simp [upper]
  | cons c w ih =>
      obtain ⟨hc, hw⟩ := List.forall_mem_cons.mp hw
      rw [upper_cons, upperChar_received hc, List.singleton_append]
      cases v with
      | nil => simp
      | cons d v =>
          obtain ⟨hd, hv⟩ := List.cons_subset.mp hv
          rw [List.map_cons, List.map_cons, List.cons.injEq, List.cons.injEq, ih hw hv,
            toUpper_eq_iff hd]

theorem toLower_of_isSpace {c : Char} (hc : isSpace c = true) : c.toLower = c := by
  simp only [isSpace, Bool.or_eq_true, Bool.and_eq_true, decide_eq_true_eq, beq_iff_eq] at hc
  rw [← Char.toNat_inj, toNat_toLower, if_neg (by omega)]

/-- Words in any case are words. -/
theorem mem_word_of_anyCase {v w : Str} (hne : v ≠ []) (hv : v ⊆ CAPITALS)
    (hw : w ∈ anyCase v) : w ∈ word isSpace := by
  have hmap : w.map Char.toLower = v.map Char.toLower := hw
  refine ⟨?_, fun c hc => ?_⟩
  · rintro rfl
    exact hne (List.map_eq_nil_iff.mp hmap.symm)
  · have hlower : c.toLower ∈ v.map Char.toLower := hmap ▸ List.mem_map_of_mem hc
    obtain ⟨d, hd, heq⟩ := List.mem_map.mp hlower
    have hall : CAPITALS.all (fun d => !isSpace d.toLower) = true := by decide
    have hletter := List.all_eq_true.mp hall d (hv hd)
    by_contra hspace
    rw [Bool.not_eq_false] at hspace
    rw [heq, toLower_of_isSpace hspace, hspace] at hletter
    cases hletter

/-- A double quote is no case of a letter. -/
theorem quote_notMem_anyCase {v w : Str} (hv : v ⊆ CAPITALS) (hw : w ∈ anyCase v) : '"' ∉ w := by
  intro hc
  have hmap : w.map Char.toLower = v.map Char.toLower := hw
  have hlower : '"' ∈ v.map Char.toLower := hmap ▸ List.mem_map_of_mem hc
  obtain ⟨d, hd, heq⟩ := List.mem_map.mp hlower
  have hall : CAPITALS.all (fun d => d.toLower ≠ '"') = true := by decide
  exact of_decide_eq_true (List.all_eq_true.mp hall d (hv hd)) heq

/-! ## Functions -/

/-- The member of a list that has a given value. -/
theorem find_value_iff {α : Type} {members : List α} {value : α → Str}
    (hself : ∀ a, members.find? (fun member => value member = value a) = some a) {a : α}
    {t : Str} : (members.find? fun member => value member = t) = some a ↔ t = value a := by
  constructor
  · intro h
    have hvalue := List.find?_some h
    exact (of_decide_eq_true hvalue).symm
  · rintro rfl
    exact hself a

/-- The member with a value is the function of that value. -/
theorem members_find {f : Function} {t : Str} :
    (Function.members.find? fun member => member.value = t) = some f ↔ t = f.value :=
  find_value_iff fun f => by cases f <;> decide

/-- Joining keeps words apart. -/
theorem split_join {ws : List Str} (h : ∀ w ∈ ws, w ∈ word isSpace) : split (join ws) = ws := by
  show words isSpace (join ws) = ws
  induction ws with
  | nil => rfl
  | cons w ws ih =>
      obtain ⟨hw, hws⟩ := List.forall_mem_cons.mp h
      cases ws with
      | nil => simpa [join] using words_word hw
      | cons v ws =>
          have hjoin : join (w :: v :: ws) = w ++ ' ' :: join (v :: ws) := by simp [join]
          rw [hjoin, words_append hw (by decide), ih hws]

/-- Words are a function's value exactly if they are its words. -/
theorem join_eq_value_iff {s : Str} {f : Function} :
    join (split s) = f.value ↔ split s = split f.value := by
  have hvalue : join (split f.value) = f.value := by cases f <;> decide
  constructor
  · intro h
    have hsplit : split (join (split s)) = split s := split_join fun w hw => mem_words hw
    rw [← h, hsplit]
  · intro h
    rw [h, hvalue]

/-- A letter's capitals have no whitespace. -/
theorem upperChar_mem_word {c : Char} (hc : isSpace c = false) : upperChar c ∈ word isSpace := by
  rw [upperChar]
  split
  · next hsmall =>
      obtain ⟨hlow, hhigh⟩ := (Bool.and_eq_true ..).mp hsmall
      have hlow' : 97 ≤ c.toNat := of_decide_eq_true hlow
      have hhigh' : c.toNat ≤ 122 := of_decide_eq_true hhigh
      have hcapital : ∀ n < 128, 97 ≤ n → n ≤ 122 → isSpace (Char.ofNat (n - 32)) = false := by
        decide
      exact ⟨List.cons_ne_nil _ [], by simpa using hcapital _ (by omega) hlow' hhigh'⟩
  · cases hlookup : capitals.lookup c with
    | none => exact ⟨List.cons_ne_nil c [], by simpa using hc⟩
    | some t =>
        have hall : capitals.all (fun p => !p.2.isEmpty && p.2.all fun d => !isSpace d) = true := by
          decide
        obtain ⟨front, back, hsplit, -⟩ := List.lookup_eq_some_iff.mp hlookup
        have hentry := List.all_eq_true.mp hall (c, t) (by rw [hsplit]; simp)
        have hboth : t ≠ [] ∧ ∀ d ∈ t, isSpace d = false := by simpa using hentry
        exact hboth

/-- The words of a text in capitals are its words, in capitals. -/
theorem split_upper (s : Str) : split (upper s) = (split s).map upper := by
  refine words_flatMap ?_ (fun c hc => upperChar_mem_word hc) s
  intro c hc
  rw [upperChar_of_isSpace hc]
  exact ⟨List.cons_ne_nil c [], by simpa using hc⟩

/-- The words of a text in upper case are those words exactly if each is one of them in any
    case. -/
theorem map_upper_iff {ws vs : List Str} (hws : ∀ w ∈ ws, Received w)
    (hvs : ∀ v ∈ vs, v ⊆ CAPITALS) :
    ws.map upper = vs ↔ Forall₂ (fun w L => w ∈ L) ws (vs.map anyCase) := by
  induction ws generalizing vs with
  | nil => cases vs <;> simp
  | cons w ws ih =>
      obtain ⟨hw, hws⟩ := List.forall_mem_cons.mp hws
      cases vs with
      | nil => simp
      | cons v vs =>
          obtain ⟨hv, hvs⟩ := List.forall_mem_cons.mp hvs
          rw [List.map_cons, List.map_cons, List.cons.injEq, List.forall₂_cons,
            upper_eq_iff hw hv, ih hws hvs]

/-- The words of a function's value are not empty, and hold capitals only. -/
theorem value_subset (f : Function) : ∀ v ∈ split f.value, v ≠ [] ∧ v ⊆ CAPITALS := by
  cases f <;> decide

/-- A word of a function, in any case, is a word. -/
theorem functionWords (f : Function) :
    ∀ L ∈ (split f.value).map anyCase, ∀ w ∈ L, w ∈ word isSpace := by
  intro L hL w hw
  obtain ⟨v, hv, rfl⟩ := List.mem_map.mp hL
  obtain ⟨hne, hletters⟩ := value_subset f v hv
  exact mem_word_of_anyCase hne hletters hw

/-- A body by its words. -/
theorem mem_functionBody_iff {f : Function} {s : Str} :
    s ∈ functionBody f ↔ Forall₂ (fun w L => w ∈ L) (split s) ((split f.value).map anyCase) :=
  (forall₂_words (functionWords f)).symm

/-- Whitespace around the words of a function may go. -/
theorem strip_mem_functionBody {f : Function} {s : Str} (h : s ∈ functionBody f) :
    strip s ∈ functionBody f := by
  obtain ⟨front, back, hs, hfront, hback⟩ := strip_spec s
  have hsplit : split s = split (strip s) := by
    have hwords := congrArg (words isSpace) hs
    rwa [List.append_assoc, words_spaces hfront, words_trailing hback] at hwords
  rw [mem_functionBody_iff, ← hsplit]
  exact mem_functionBody_iff.mp h

/-- The words of a function hold no double quote. -/
theorem quote_notMem_functionBody {f : Function} {s : Str} (h : s ∈ functionBody f) :
    '"' ∉ s := by
  intro hquote
  obtain ⟨w, hw, hc⟩ := exists_word (by decide : isSpace '"' = false) hquote
  obtain ⟨L, hL, hwL⟩ := exists_language (mem_functionBody_iff.mp h) hw
  obtain ⟨v, hv, rfl⟩ := List.mem_map.mp hL
  exact quote_notMem_anyCase (value_subset f v hv).2 hwL hc

/-- **A function's parser** accepts the responses of that function. -/
theorem function_fromDevice_iff {raw : Str} (hraw : Received raw) (f : Function) :
    Function.fromDevice raw = some f ↔ raw ∈ functionResponse f := by
  have hwords : ∀ w ∈ split (unquote raw), Received w := fun w hw c hc =>
    hraw c (unquote_subset raw (subset_of_mem_words hw hc))
  calc Function.fromDevice raw = some f
      ↔ join (split (upper (unquote raw))) = f.value := members_find
    _ ↔ split (upper (unquote raw)) = split f.value := join_eq_value_iff
    _ ↔ (split (unquote raw)).map upper = split f.value := by rw [split_upper]
    _ ↔ Forall₂ (fun w L => w ∈ L) (split (unquote raw)) ((split f.value).map anyCase) :=
        map_upper_iff hwords fun v hv => (value_subset f v hv).2
    _ ↔ unquote raw ∈ functionBody f := mem_functionBody_iff.symm
    _ ↔ raw ∈ functionResponse f := unquote_mem_iff (fun _ => strip_mem_functionBody)
        fun _ => quote_notMem_functionBody

/-! ## Rates -/

theorem rate_members_find {r : Rate} {t : Str} :
    (Rate.members.find? fun member => member.value = t) = some r ↔ t = r.value :=
  find_value_iff fun r => by cases r <;> decide

/-- A rate's value is not empty, and holds capitals only. -/
theorem rate_value_subset (r : Rate) : r.value ≠ [] ∧ r.value ⊆ CAPITALS := by
  cases r <;> decide

/-- **A rate's parser** accepts the responses of that rate. -/
theorem rate_fromDevice_iff {raw : Str} (hraw : Received raw) (r : Rate) :
    Rate.fromDevice raw = some r ↔ raw ∈ rateResponse r := by
  obtain ⟨hne, hletters⟩ := rate_value_subset r
  have hstrip : ∀ s ∈ anyCase r.value, strip s ∈ anyCase r.value := by
    intro s hs
    obtain ⟨hs', hword⟩ := mem_word_of_anyCase hne hletters hs
    have hself : strip s = s := by simpa using strip_append hs' hword []
    rwa [hself]
  calc Rate.fromDevice raw = some r
      ↔ upper (unquote raw) = r.value := rate_members_find
    _ ↔ unquote raw ∈ anyCase r.value :=
        upper_eq_iff (fun c hc => hraw c (unquote_subset raw hc)) hletters
    _ ↔ raw ∈ rateResponse r := unquote_mem_iff hstrip fun _ => quote_notMem_anyCase hletters

/-- **THE PARSERS ACCEPT EXACTLY THEIR GRAMMAR**, for every text that can be received: a
    function or a rate is returned if and only if the text is a response of it, any other
    text raises `ValueError`, and no text is a response of two. -/
theorem fromDevice_grammar (raw : Str) (hraw : Received raw) :
    (∀ f, Function.fromDevice raw = some f ↔ raw ∈ functionResponse f) ∧
    (∀ r, Rate.fromDevice raw = some r ↔ raw ∈ rateResponse r) ∧
    (Function.fromDevice raw = none ↔ ∀ f, raw ∉ functionResponse f) ∧
    (Rate.fromDevice raw = none ↔ ∀ r, raw ∉ rateResponse r) ∧
    (∀ f g, raw ∈ functionResponse f → raw ∈ functionResponse g → f = g) ∧
    ∀ r s, raw ∈ rateResponse r → raw ∈ rateResponse s → r = s := by
  have hf := function_fromDevice_iff hraw
  have hr := rate_fromDevice_iff hraw
  refine ⟨hf, hr, ?_, ?_, ?_, ?_⟩
  · simp only [← hf, Option.eq_none_iff_forall_ne_some, ne_eq]
  · simp only [← hr, Option.eq_none_iff_forall_ne_some, ne_eq]
  · intro f g hfraw hgraw
    exact Option.some.inj (((hf f).mpr hfraw).symm.trans ((hf g).mpr hgraw))
  · intro r s hrraw hsraw
    exact Option.some.inj (((hr r).mpr hrraw).symm.trans ((hr s).mpr hsraw))

/-- Padding goes inside the quotes of a function, and outside. -/
theorem fromDevice_grammar_quoted :
    "\t\" volt  aC \"\r".toList ∈ functionResponse .VOLT_AC ∧
    ∀ r, "\t\" volt  aC \"\r".toList ∉ rateResponse r := by
  obtain ⟨hf, -, -, hr, -⟩ := fromDevice_grammar "\t\" volt  aC \"\r".toList
    fun c hc => .inl (isAscii_iff.mp (by decide) c hc)
  exact ⟨(hf .VOLT_AC).mp (by decide), hr.mp (by decide)⟩

end Responses
