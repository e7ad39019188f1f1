import XdmServer.PyText

/-! # Lines of a byte stream

    A stream of bytes is its complete lines, each ended by a newline, and a fragment
    without one.  `readlines` is what reading it line by line gives: each complete line
    with its newline, and at the end the fragment, if it is not empty. -/

namespace PyText

/-- `StreamReader.readline` on a stream that has ended: the bytes up to and including the
    next newline, or whatever remains, and the rest of the stream. -/
def readline : Bytes → Bytes × Bytes
  | [] => ([], [])
  | b :: bs =>
      if b = newline then ([b], bs)
      else (b :: (readline bs).1, (readline bs).2)

/-- What `readline` returns before it returns `b""`. -/
def readlines : Bytes → List Bytes
  | [] => []
  | b :: bs =>
      if b = newline then [b] :: readlines bs
      else
        match readlines bs with
        | [] => [[b]]
        | line :: lines => (b :: line) :: lines

/-- The complete lines of a stream, without their newlines, and the fragment after them. -/
def splitLines : Bytes → List Bytes × Bytes
  | [] => ([], [])
  | b :: bs =>
      let (lines, fragment) := splitLines bs
      if b = newline then ([] :: lines, fragment)
      else
        match lines with
        | [] => ([], b :: fragment)
        | line :: lines => ((b :: line) :: lines, fragment)

/-- The lines of a stream that end in a newline. -/
def completeLines (stream : Bytes) : List Bytes := (splitLines stream).1

/-- What comes after the last newline. -/
def fragment (stream : Bytes) : Bytes := (splitLines stream).2

/-- A line with its newline. -/
def terminated (line : Bytes) : Bytes := line ++ [newline]

/-- What is read at the end of the stream, if anything is. -/
def leftover : Bytes → List Bytes
  | [] => []
  | b :: bs => [b :: bs]

/-- **Reading goes on** where the last line ended. -/
theorem readlines_eq (stream : Bytes) (h : stream ≠ []) :
    readlines stream = (readline stream).1 :: readlines (readline stream).2 := by
  induction stream with
  | nil => exact absurd rfl h
  | cons b bs ih =>
      by_cases hb : b = newline
      · have hread : readline (b :: bs) = ([b], bs) := if_pos hb
        rw [hread, readlines, if_pos hb]
      · have hread : readline (b :: bs) = (b :: (readline bs).1, (readline bs).2) := if_neg hb
        rw [hread, readlines, if_neg hb]
        cases bs with
        | nil => rfl
        | cons c cs => rw [ih (List.cons_ne_nil c cs)]

/-- The lines and the fragment are the stream. -/
theorem splitLines_flatten (stream : Bytes) :
    ((completeLines stream).map terminated).flatten ++ fragment stream = stream := by
  induction stream with
  | nil => rfl
  | cons b bs ih =>
      unfold completeLines fragment at ih ⊢
      simp only [splitLines]
      generalize splitLines bs = split at ih ⊢
      obtain ⟨lines, frag⟩ := split
      by_cases hb : b = newline
      · subst hb
        rw [if_pos rfl]
        exact congrArg (newline :: ·) ih
      · rw [if_neg hb]
        cases lines with
        | nil => exact congrArg (b :: ·) ih
        | cons line lines => exact congrArg (b :: ·) ih

/-- No newline stands within a line, or in the fragment. -/
theorem newline_notMem_splitLines (stream : Bytes) :
    (∀ line ∈ completeLines stream, newline ∉ line) ∧ newline ∉ fragment stream := by
  induction stream with
  | nil => exact ⟨fun line h => (nomatch h), fun h => nomatch h⟩
  | cons b bs ih =>
      unfold completeLines fragment at ih ⊢
      simp only [splitLines]
      generalize splitLines bs = split at ih ⊢
      obtain ⟨lines, frag⟩ := split
      obtain ⟨hlines, hfrag⟩ := ih
      by_cases hb : b = newline
      · rw [if_pos hb]
        refine ⟨fun line hline => ?_, hfrag⟩
        obtain rfl | hline := List.mem_cons.mp hline
        · exact fun h => nomatch h
        · exact hlines line hline
      · rw [if_neg hb]
        have hcons : ∀ {l : Bytes}, newline ∉ l → newline ∉ b :: l := by
          intro l hl hmem
          obtain h | h := List.mem_cons.mp hmem
          · exact hb h.symm
          · exact hl h
        cases lines with
        | nil => exact ⟨fun line h => (nomatch h), hcons hfrag⟩
        | cons line lines =>
            refine ⟨fun l hl => ?_, hfrag⟩
            obtain rfl | hl := List.mem_cons.mp hl
            · exact hcons (hlines line (List.mem_cons_self ..))
            · exact hlines l (List.mem_cons_of_mem _ hl)

/-- **What is read**: the complete lines, and the fragment if there is one. -/
theorem readlines_splitLines (stream : Bytes) :
    readlines stream = (completeLines stream).map terminated ++ leftover (fragment stream) := by
  induction stream with
  | nil => rfl
  | cons b bs ih =>
      unfold completeLines fragment at ih ⊢
      simp only [readlines, splitLines]
      rw [ih]
      clear ih
      rcases splitLines bs with ⟨lines, frag⟩
      by_cases hb : b = newline
      · subst hb
        rw [if_pos rfl, if_pos rfl]
        rfl
      · rw [if_neg hb, if_neg hb]
        cases lines with
        | nil =>
            cases frag with
            | nil => rfl
            | cons c cs => rfl
        | cons line lines => rfl

/-- A stream of complete lines is read as these lines. -/
theorem readlines_terminated {lines : List Bytes} (h : ∀ line ∈ lines, newline ∉ line) :
    readlines (lines.map terminated).flatten = lines.map terminated := by
  induction lines with
  | nil => rfl
  | cons line lines ih =>
      have hrest := ih fun l hl => h l (List.mem_cons_of_mem _ hl)
      have hline : newline ∉ line := h line (List.mem_cons_self ..)
      show readlines (terminated line ++ (lines.map terminated).flatten) = _
      clear ih h
      induction line with
      | nil =>
          exact congrArg ([newline] :: ·) hrest
      | cons b bs ih =>
          have hb : b ≠ newline := fun he => hline (he ▸ List.mem_cons_self ..)
          have hbs := ih fun hmem => hline (List.mem_cons_of_mem _ hmem)
          show (if b = newline then _ else
            match readlines (terminated bs ++ (lines.map terminated).flatten) with
            | [] => [[b]]
            | line :: lines => (b :: line) :: lines) = _
          rw [if_neg hb, hbs]
          rfl

/-- **Reading one line** where there is one: the bytes up to and including the newline. -/
theorem readline_line {line : Bytes} (rest : Bytes) (h : newline ∉ line) :
    readline (line ++ newline :: rest) = (terminated line, rest) := by
  induction line with
  | nil => exact if_pos rfl
  | cons b bs ih =>
      have hb : ¬ b = newline := fun hb => h (hb ▸ List.mem_cons_self ..)
      have hbs : newline ∉ bs := fun hbs => h (List.mem_cons_of_mem _ hbs)
      rw [List.cons_append, readline, if_neg hb, ih hbs]
      rfl

/-- Where there is a newline, there is a first one. -/
theorem exists_line {stream : Bytes} (h : newline ∈ stream) :
    ∃ line rest, stream = line ++ newline :: rest ∧ newline ∉ line := by
  induction stream with
  | nil => cases h
  | cons b bs ih =>
      by_cases hb : b = newline
      · subst hb
        exact ⟨[], bs, rfl, List.not_mem_nil⟩
      · have hbs : newline ∈ bs := by
          obtain h | h := List.mem_cons.mp h
          · exact absurd h.symm hb
          · exact h
        obtain ⟨line, rest, rfl, hline⟩ := ih hbs
        refine ⟨b :: line, rest, rfl, ?_⟩
        intro hmem
        obtain h | h := List.mem_cons.mp hmem
        · exact hb h.symm
        · exact hline h

/-- Where there is none, everything is read. -/
theorem readline_of_notMem {stream : Bytes} (h : newline ∉ stream) :
    readline stream = (stream, []) := by
  induction stream with
  | nil => rfl
  | cons b bs ih =>
      have hb : ¬ b = newline := fun hb => h (hb ▸ List.mem_cons_self ..)
      rw [readline, if_neg hb, ih fun hbs => h (List.mem_cons_of_mem _ hbs)]

end PyText
