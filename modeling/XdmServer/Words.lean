import Mathlib.Computability.Language
import Mathlib.Data.List.Forall2

/-! # Words, and the gaps between them

    A text over any alphabet, some letters of which are spaces.  `words` splits it at its
    spaces; `separated` is the language of the texts in which one word of each of a list of
    languages follows the other.

    `forall₂_words` says that the two agree: the words of a text are, one by one, of the
    languages of the list exactly if the text is of the language that the list makes. -/

namespace Words

open List (Forall₂)

variable {α : Type} (p : α → Bool)

/-- What stands between the spaces of a text. -/
def words (s : List α) : List (List α) := (s.splitOnP p).filter fun w => !w.isEmpty

/-- Spaces, or nothing. -/
def spaces : Language α := {s | ∀ c ∈ s, p c = true}

/-- At least one space. -/
def gap : Language α := {s | s ≠ [] ∧ ∀ c ∈ s, p c = true}

/-- At least one letter, and no space. -/
def word : Language α := {w | w ≠ [] ∧ ∀ c ∈ w, p c = false}

/-- A word of each language, with gaps between them. -/
def separated : List (Language α) → Language α
  | [] => 1
  | [L] => L
  | L :: M :: Ls => L * gap p * separated (M :: Ls)

variable {p}

/-! ## Splitting a text -/

theorem words_nil : words p [] = [] := rfl

/-- A space in front holds no word. -/
theorem words_cons {c : α} (hc : p c = true) (s : List α) : words p (c :: s) = words p s := by
  rw [words, List.splitOnP_cons_eq_if_modifyHead, if_pos hc]
  rfl

theorem words_spaces {a : List α} (ha : a ∈ spaces p) (s : List α) :
    words p (a ++ s) = words p s := by
  induction a with
  | nil => rfl
  | cons c a ih =>
      rw [List.cons_append, words_cons (ha c (List.mem_cons_self ..)),
        ih fun d hd => ha d (List.mem_cons_of_mem c hd)]

theorem words_word {w : List α} (hw : w ∈ word p) : words p w = [w] := by
  obtain ⟨hne, hletters⟩ := hw
  rw [words, List.splitOnP_eq_singleton hletters]
  simp [hne]

/-- A word and a space, and the words of the rest. -/
theorem words_append {w : List α} (hw : w ∈ word p) {c : α} (hc : p c = true) (s : List α) :
    words p (w ++ c :: s) = w :: words p s := by
  obtain ⟨hne, hletters⟩ := hw
  rw [words, List.splitOnP_append_cons_of_forall_mem hletters c hc]
  simp [words, hne]

/-- A word ends at a gap. -/
theorem words_gap {w : List α} (hw : w ∈ word p) {a : List α} (ha : a ∈ gap p) (s : List α) :
    words p (w ++ a ++ s) = w :: words p s := by
  obtain ⟨hne, hspaces⟩ := ha
  obtain ⟨c, a, rfl⟩ := List.exists_cons_of_ne_nil hne
  have hrest : a ∈ spaces p := fun d hd => hspaces d (List.mem_cons_of_mem c hd)
  rw [List.append_assoc, List.cons_append, words_append hw (hspaces c (List.mem_cons_self ..)),
    words_spaces hrest]

/-- The last word may be followed by spaces. -/
theorem words_last {w : List α} (hw : w ∈ word p) {b : List α} (hb : b ∈ spaces p) :
    words p (w ++ b) = [w] := by
  cases b with
  | nil => rw [List.append_nil, words_word hw]
  | cons c b =>
      have hrest : b ∈ spaces p := fun d hd => hb d (List.mem_cons_of_mem c hd)
      have hnone : words p b = [] := by simpa [words_nil] using words_spaces hrest []
      rw [words_append hw (hb c (List.mem_cons_self ..)), hnone]

/-- **The induction over the words of a text**: it is empty, begins with a space, is a word,
    or begins with a word and a space. -/
theorem words_induction {P : List α → List (List α) → Prop} (nil : P [] [])
    (space : ∀ c s ws, p c = true → P s ws → P (c :: s) ws)
    (last : ∀ w ∈ word p, P w [w])
    (next : ∀ w ∈ word p, ∀ c s ws, p c = true → P s ws → P (w ++ c :: s) (w :: ws))
    (s : List α) : P s (words p s) := by
  have both : P s (words p s) ∧ ∀ w ∈ word p, P (w ++ s) (words p (w ++ s)) := by
    induction s with
    | nil =>
        refine ⟨nil, fun w hw => ?_⟩
        rw [List.append_nil, words_word hw]
        exact last w hw
    | cons c s ih =>
        cases hc : p c with
        | true =>
            refine ⟨?_, fun w hw => ?_⟩
            · rw [words_cons hc]
              exact space c s _ hc ih.1
            · rw [words_append hw hc]
              exact next w hw c s _ hc ih.1
        | false =>
            -- the letter goes to the word in front of it
            refine ⟨ih.2 [c] ⟨List.cons_ne_nil c [], by simpa using hc⟩, fun w hw => ?_⟩
            have hword : w ++ [c] ∈ word p := by
              refine ⟨by simp, fun d hd => ?_⟩
              obtain hd | hd := List.mem_append.mp hd
              · exact hw.2 d hd
              · rw [List.mem_singleton.mp hd, hc]
            simpa using ih.2 (w ++ [c]) hword
  exact both.1

/-- The letters of the words are letters of the text. -/
theorem subset_of_mem_words {s w : List α} (hw : w ∈ words p s) : w ⊆ s := by
  have hall : ∀ w ∈ words p s, w ⊆ s := by
    refine words_induction (P := fun s ws => ∀ w ∈ ws, w ⊆ s) ?_ ?_ ?_ ?_ s
    · intro w hw
      cases hw
    · intro c s ws _ ih w hw
      exact List.Subset.trans (ih w hw) (List.subset_cons_self c s)
    · intro w _ v hv
      rw [List.mem_singleton.mp hv]
      exact List.Subset.refl w
    · intro w _ c s ws _ ih v hv
      obtain rfl | hv := List.mem_cons.mp hv
      · exact List.subset_append_left v (c :: s)
      · have hrest : v ⊆ c :: s := List.Subset.trans (ih v hv) (List.subset_cons_self c s)
        exact List.Subset.trans hrest (List.subset_append_right w _)
  exact hall w hw

/-- A letter that is no space is in a word. -/
theorem exists_word {c : α} (hc : p c = false) {s : List α} (h : c ∈ s) :
    ∃ w ∈ words p s, c ∈ w := by
  have hspace : ∀ d, p d = true → c ≠ d := by
    rintro d hd rfl
    rw [hc] at hd
    cases hd
  revert h
  refine words_induction (P := fun s ws => c ∈ s → ∃ w ∈ ws, c ∈ w) ?_ ?_ ?_ ?_ s
  · intro h
    cases h
  · intro d s ws hd ih h
    exact ih (List.mem_of_ne_of_mem (hspace d hd) h)
  · intro w _ h
    exact ⟨w, List.mem_singleton_self w, h⟩
  · intro w _ d s ws hd ih h
    obtain h | h := List.mem_append.mp h
    · exact ⟨w, List.mem_cons_self .., h⟩
    · obtain ⟨v, hv, hcv⟩ := ih (List.mem_of_ne_of_mem (hspace d hd) h)
      exact ⟨v, List.mem_cons_of_mem w hv, hcv⟩

/-- Spaces behind a text add no word. -/
theorem words_trailing {b : List α} (hb : b ∈ spaces p) (s : List α) :
    words p (s ++ b) = words p s := by
  refine words_induction (P := fun s ws => words p (s ++ b) = ws) ?_ ?_ ?_ ?_ s
  · simpa [words_nil] using words_spaces hb []
  · intro c s ws hc ih
    rw [List.cons_append, words_cons hc, ih]
  · intro w hw
    exact words_last hw hb
  · intro w hw c s ws hc ih
    rw [List.append_assoc, List.cons_append, words_append hw hc, ih]

/-- **What `words` returns are words.** -/
theorem mem_words {s w : List α} (hw : w ∈ words p s) : w ∈ word p := by
  have hall : ∀ w ∈ words p s, w ∈ word p := by
    refine words_induction (P := fun _ ws => ∀ w ∈ ws, w ∈ word p) ?_ ?_ ?_ ?_ s
    · intro w hw
      cases hw
    · intro c s ws _ ih
      exact ih
    · intro w hw v hv
      rwa [List.mem_singleton.mp hv]
    · intro w hw c s ws _ ih v hv
      obtain rfl | hv := List.mem_cons.mp hv
      · exact hw
      · exact ih v hv
  exact hall w hw

/-! ## The language of a list of words -/

/-- Each of the words is of one of the languages. -/
theorem exists_language {ws : List (List α)} {Ls : List (Language α)}
    (h : Forall₂ (fun w L => w ∈ L) ws Ls) {w : List α} (hw : w ∈ ws) : ∃ L ∈ Ls, w ∈ L := by
  induction h with
  | nil => cases hw
  | cons hv _ ih =>
      obtain rfl | hw := List.mem_cons.mp hw
      · exact ⟨_, List.mem_cons_self .., hv⟩
      · obtain ⟨L, hL, hwL⟩ := ih hw
        exact ⟨L, List.mem_cons_of_mem _ hL, hwL⟩

/-- A text of the language splits into words of the languages. -/
theorem words_of_separated {Ls : List (Language α)} (hLs : ∀ L ∈ Ls, ∀ w ∈ L, w ∈ word p)
    {m b : List α} (hm : m ∈ separated p Ls) (hb : b ∈ spaces p) :
    Forall₂ (fun w L => w ∈ L) (words p (m ++ b)) Ls := by
  induction Ls generalizing m with
  | nil =>
      obtain rfl : m = [] := hm
      have hnone : words p b = [] := by simpa [words_nil] using words_spaces hb []
      rw [List.nil_append, hnone]
      exact .nil
  | cons L Ls ih =>
      have hword : ∀ w ∈ L, w ∈ word p := hLs L (List.mem_cons_self ..)
      cases Ls with
      | nil =>
          rw [words_last (hword m hm) hb]
          exact .cons hm .nil
      | cons M Ls =>
          obtain ⟨front, hfront, rest, hrest, rfl⟩ := Language.mem_mul.mp hm
          obtain ⟨w, hw, a, ha, rfl⟩ := Language.mem_mul.mp hfront
          rw [List.append_assoc, words_gap (hword w hw) ha]
          exact .cons hw (ih (fun N hN => hLs N (List.mem_cons_of_mem L hN)) hrest)

/-- A text is of the language of its words, with spaces around them. -/
theorem separated_of_words {Ls : List (Language α)} {s : List α}
    (h : Forall₂ (fun w L => w ∈ L) (words p s) Ls) :
    s ∈ spaces p * separated p Ls * spaces p := by
  have hnil : [] ∈ spaces p := fun c hc => by cases hc
  revert Ls
  refine words_induction (P := fun s ws => ∀ {Ls : List (Language α)},
    Forall₂ (fun w L => w ∈ L) ws Ls → s ∈ spaces p * separated p Ls * spaces p) ?_ ?_ ?_ ?_ s
  · intro Ls h
    cases h
    have hsep : [] ∈ separated p [] := Language.nil_mem_one
    exact Language.append_mem_mul (Language.append_mem_mul hnil hsep) hnil
  · intro c s ws hc ih Ls h
    obtain ⟨front, hfront, b, hb, rfl⟩ := Language.mem_mul.mp (ih h)
    obtain ⟨a, ha, m, hm, rfl⟩ := Language.mem_mul.mp hfront
    have hca : c :: a ∈ spaces p := List.forall_mem_cons.mpr ⟨hc, ha⟩
    exact Language.append_mem_mul (Language.append_mem_mul hca hm) hb
  · intro w _ Ls h
    obtain ⟨L, Ls, hw, hrest, rfl⟩ := List.forall₂_cons_left_iff.mp h
    obtain rfl := List.forall₂_nil_left_iff.mp hrest
    have hsep : w ∈ separated p [L] := hw
    simpa using Language.append_mem_mul (Language.append_mem_mul hnil hsep) hnil
  · intro w _ c s ws hc ih Ls h
    obtain ⟨L, Ls, hw, hrest, rfl⟩ := List.forall₂_cons_left_iff.mp h
    obtain ⟨front, hfront, b, hb, rfl⟩ := Language.mem_mul.mp (ih hrest)
    obtain ⟨a, ha, m, hm, rfl⟩ := Language.mem_mul.mp hfront
    cases Ls with
    | nil =>
        -- the word was the last one
        obtain rfl : m = [] := hm
        have hsep : w ∈ separated p [L] := hw
        have hback : c :: (a ++ b) ∈ spaces p := List.forall_mem_cons.mpr
          ⟨hc, List.forall_mem_append.mpr ⟨ha, hb⟩⟩
        simpa using Language.append_mem_mul (Language.append_mem_mul hnil hsep) hback
    | cons M Ls =>
        have hgap : c :: a ∈ gap p := ⟨List.cons_ne_nil c a, List.forall_mem_cons.mpr ⟨hc, ha⟩⟩
        have hsep : w ++ (c :: a) ++ m ∈ separated p (L :: M :: Ls) :=
          Language.append_mem_mul (Language.append_mem_mul hw hgap) hm
        simpa using Language.append_mem_mul (Language.append_mem_mul hnil hsep) hb

/-- **WORDS AGAINST LANGUAGES.** -/
theorem forall₂_words {Ls : List (Language α)} (hLs : ∀ L ∈ Ls, ∀ w ∈ L, w ∈ word p)
    {s : List α} :
    Forall₂ (fun w L => w ∈ L) (words p s) Ls ↔ s ∈ spaces p * separated p Ls * spaces p := by
  constructor
  · exact separated_of_words
  · intro h
    obtain ⟨front, hfront, b, hb, rfl⟩ := Language.mem_mul.mp h
    obtain ⟨a, ha, m, hm, rfl⟩ := Language.mem_mul.mp hfront
    rw [List.append_assoc, words_spaces ha]
    exact words_of_separated hLs hm hb

/-! ## Texts under a change of their letters -/

/-- A change that makes spaces of spaces and words of letters changes the words of a text. -/
theorem words_flatMap {f : α → List α} (hspace : ∀ c, p c = true → f c ∈ gap p)
    (hletter : ∀ c, p c = false → f c ∈ word p) (s : List α) :
    words p (s.flatMap f) = (words p s).map fun w => w.flatMap f := by
  have hword : ∀ w ∈ word p, w.flatMap f ∈ word p := by
    rintro w ⟨hne, hletters⟩
    obtain ⟨c, w, rfl⟩ := List.exists_cons_of_ne_nil hne
    refine ⟨?_, fun d hd => ?_⟩
    · rw [List.flatMap_cons]
      exact List.append_ne_nil_of_left_ne_nil (hletter c (hletters c (List.mem_cons_self ..))).1 _
    · obtain ⟨e, he, hd⟩ := List.mem_flatMap.mp hd
      exact (hletter e (hletters e he)).2 d hd
  refine words_induction (P := fun s ws => words p (s.flatMap f) = ws.map fun w => w.flatMap f)
    ?_ ?_ ?_ ?_ s
  · rfl
  · intro c s ws hc ih
    rw [List.flatMap_cons, words_spaces (hspace c hc).2, ih]
  · intro w hw
    exact words_word (hword w hw)
  · intro w hw c s ws hc ih
    rw [List.flatMap_append, List.flatMap_cons, ← List.append_assoc,
      words_gap (hword w hw) (hspace c hc), ih]
    rfl

end Words
