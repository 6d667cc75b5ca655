import KeyRelay.Text.Blank
import Mathlib.Data.List.TakeWhile

/-! # Runs of characters and white space at the ends

A run of characters of one class at the front of a text is taken off whole if the text behind
it stops, which is where it does not go on with another of them. Trimming takes the white space
off both ends of a text and leaves what lies between. -/
set_option autoImplicit false

namespace KeyRelay.Text

/-- The text does not go on with a character of the class. -/
def Stops (within : Char → Bool) (text : List Char) : Prop :=
  ∀ c, text.head? = some c → within c = false

section Run

variable {within : Char → Bool} {run rest : List Char}

theorem stops_nil : Stops within [] := by
  intro c head
  simp at head

theorem stops_cons {c : Char} (out : within c = false) : Stops within (c :: rest) := by
  intro first head
  rw [List.head?_cons, Option.some.injEq] at head
  rwa [← head]

theorem Stops.append_left {front : List Char} (stops : Stops within (front ++ rest)) :
    Stops within front := by
  intro c head
  apply stops c
  rw [List.head?_append, head, Option.some_or]

theorem stops_dropWhile (within : Char → Bool) (text : List Char) :
    Stops within (text.dropWhile within) := by
  intro c head
  have out := List.head?_dropWhile_not within text
  rwa [head] at out

theorem takeWhile_run (members : ∀ c ∈ run, within c = true) (stops : Stops within rest) :
    (run ++ rest).takeWhile within = run := by
  rw [List.takeWhile_append_of_pos members]
  cases rest with
  | nil => exact List.append_nil run
  | cons c rest =>
    rw [List.takeWhile_cons_of_neg (by simp [stops c rfl]), List.append_nil]

theorem dropWhile_run (members : ∀ c ∈ run, within c = true) (stops : Stops within rest) :
    (run ++ rest).dropWhile within = rest := by
  rw [List.dropWhile_append_of_pos members]
  cases rest with
  | nil => rfl
  | cons c rest => rw [List.dropWhile_cons_of_neg (by simp [stops c rfl])]

/-- A text is cut behind the run at its front in one way. -/
theorem run_append_inj {other otherRest : List Char} (members : ∀ c ∈ run, within c = true)
    (stops : Stops within rest) (otherMembers : ∀ c ∈ other, within c = true)
    (otherStops : Stops within otherRest) (same : run ++ rest = other ++ otherRest) :
    run = other ∧ rest = otherRest := by
  have front : run = other := by
    rw [← takeWhile_run members stops, same, takeWhile_run otherMembers otherStops]
  subst front
  exact ⟨rfl, List.append_cancel_left same⟩

/-- What is outside of the class ends every run in front of it. -/
theorem dropWhile_append_cons {c : Char} (out : within c = false) (front back : List Char) :
    (front ++ c :: back).dropWhile within = front.dropWhile within ++ c :: back := by
  induction front with
  | nil => rw [List.nil_append, List.dropWhile_cons_of_neg (by simp [out]), List.dropWhile_nil,
      List.nil_append]
  | cons first front ih =>
    rw [List.cons_append, List.dropWhile_cons, List.dropWhile_cons, ih]
    split
    · rfl
    · rfl

end Run

/-- Nothing but white space. -/
def AllBlank (text : List Char) : Prop :=
  ∀ c ∈ text, isBlank c = true

instance (text : List Char) : Decidable (AllBlank text) :=
  List.decidableBAll _ text

theorem allBlank_nil : AllBlank [] := by
  intro c member
  simp at member

theorem AllBlank.append {front back : List Char} (first : AllBlank front)
    (second : AllBlank back) : AllBlank (front ++ back) := by
  intro c member
  exact (List.mem_append.mp member).elim (first c) (second c)

theorem exists_trimStart (text : List Char) :
    ∃ before, text = before ++ trimStart text ∧ AllBlank before :=
  ⟨text.takeWhile isBlank, List.takeWhile_append_dropWhile.symm,
    fun _ member => List.mem_takeWhile_imp member⟩

theorem exists_trimEnd (text : List Char) :
    ∃ after, text = trimEnd text ++ after ∧ AllBlank after := by
  obtain ⟨behind, reversed, blank⟩ := exists_trimStart text.reverse
  refine ⟨behind.reverse, ?_, fun c member => blank c (List.mem_reverse.mp member)⟩
  rw [← List.reverse_inj, List.reverse_append, List.reverse_reverse, trimEnd,
    List.reverse_reverse]
  exact reversed

/-- The core is what is left of a text without the white space at its ends. -/
structure Trimmed (text core : List Char) : Prop where
  joined : ∃ before after, text = before ++ core ++ after ∧ AllBlank before ∧ AllBlank after
  front : Stops isBlank core
  back : Stops isBlank core.reverse

theorem trimmed_trim (text : List Char) : Trimmed text (trim text) := by
  have front : Stops isBlank (trimStart text) := stops_dropWhile isBlank text
  obtain ⟨before, whole, blank⟩ := exists_trimStart text
  obtain ⟨after, cut, blankBehind⟩ := exists_trimEnd (trimStart text)
  refine ⟨⟨before, after, ?_, blank, blankBehind⟩, ?_, ?_⟩
  · rw [List.append_assoc, trim, ← cut]
    exact whole
  · rw [cut] at front
    exact front.append_left
  · rw [trim, trimEnd, List.reverse_reverse]
    exact stops_dropWhile isBlank _

theorem Trimmed.trim_eq {text core : List Char} (trimmed : Trimmed text core) :
    trim text = core := by
  obtain ⟨⟨before, after, rfl, blank, blankBehind⟩, front, back⟩ := trimmed
  cases core with
  | nil =>
    have nothing : trimStart (before ++ [] ++ after) = [] := by
      rw [List.append_nil]
      exact List.dropWhile_eq_nil_iff.mpr (blank.append blankBehind)
    rw [trim, nothing]
    rfl
  | cons c rest =>
    have begun : trimStart (before ++ (c :: rest) ++ after) = (c :: rest) ++ after := by
      rw [List.append_assoc]
      exact dropWhile_run blank (stops_cons (front c rfl))
    have ended : ((c :: rest) ++ after).reverse.dropWhile isBlank = (c :: rest).reverse := by
      rw [List.reverse_append]
      exact dropWhile_run (fun c member => blankBehind c (List.mem_reverse.mp member)) back
    rw [trim, begun, trimEnd, ended, List.reverse_reverse]

theorem trim_trim (text : List Char) : trim (trim text) = trim text := by
  obtain ⟨_, front, back⟩ := trimmed_trim text
  have trimmed : Trimmed (trim text) (trim text) :=
    ⟨⟨[], [], (List.append_nil _).symm, allBlank_nil, allBlank_nil⟩, front, back⟩
  exact trimmed.trim_eq

/-- White space that is put around a text is taken off with that of the text. -/
theorem trim_surrounded {before after : List Char} (text : List Char) (blank : AllBlank before)
    (blankBehind : AllBlank after) : trim (before ++ text ++ after) = trim text := by
  obtain ⟨⟨inner, behind, whole, innerBlank, behindBlank⟩, front, back⟩ := trimmed_trim text
  have joined : before ++ text ++ after =
      before ++ inner ++ trim text ++ (behind ++ after) :=
    calc before ++ text ++ after
      _ = before ++ (inner ++ trim text ++ behind) ++ after := by rw [← whole]
      _ = before ++ inner ++ trim text ++ (behind ++ after) := by simp only [List.append_assoc]
  have trimmed : Trimmed (before ++ text ++ after) (trim text) :=
    ⟨⟨before ++ inner, behind ++ after, joined, blank.append innerBlank,
      behindBlank.append blankBehind⟩, front, back⟩
  exact trimmed.trim_eq

/-- The white space on both sides of a solid character is trimmed apart. -/
theorem trim_append_cons {c : Char} (solid : isBlank c = false) (front back : List Char) :
    trim (front ++ c :: back) = trimStart front ++ c :: trimEnd back := by
  have begun : trimStart (front ++ c :: back) = trimStart front ++ c :: back :=
    dropWhile_append_cons solid front back
  have ended : (trimStart front ++ c :: back).reverse.dropWhile isBlank =
      back.reverse.dropWhile isBlank ++ c :: (trimStart front).reverse := by
    rw [List.reverse_append, List.reverse_cons, List.append_assoc]
    exact dropWhile_append_cons solid back.reverse (trimStart front).reverse
  rw [trim, begun, trimEnd, ended, List.reverse_append, List.reverse_cons, List.reverse_reverse,
    List.append_assoc]
  rfl

end KeyRelay.Text
