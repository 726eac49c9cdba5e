import ExprLang.Proofs.RoundTrip.Spelling
import ExprLang.Tree.Same

/-!
# Texts that tell their values

A text tells its value when no text of another value goes on alike, whatever stands behind the two
of them (`Script.Tells`). Sequences of texts with a separator tell the values of all of them as long
as the separator cannot be taken for what ends the sequence (`Script.Strings`).
-/

namespace ExprLang

/-- A way of writing values, for a class of values and in front of certain texts. -/
structure Script (α : Type) where
  /-- The text of a value. -/
  text : α → List Char
  /-- What the text shows of a value. -/
  bare : α → α
  /-- The values that are written. -/
  legible : α → Prop
  /-- What may stand behind a text. -/
  ends : List Char → Prop

namespace Script

variable {α : Type} {script : Script α} {separator : List Char} {last : List Char → Prop}

/-- The text of the value goes on like that of no other value. -/
def Tells (script : Script α) (value : α) : Prop :=
  ∀ other, script.legible other → ∀ rest rest', script.ends rest → script.ends rest' →
    script.text value ++ rest = script.text other ++ rest' →
      script.bare value = script.bare other ∧ rest = rest'

/-- The value is written, and its text tells it. -/
structure Clear (script : Script α) (value : α) : Prop where
  /-- The value is one of those that are written. -/
  legible : script.legible value
  /-- Its text goes on like that of no other. -/
  tells : script.Tells value

/-- The texts of values, each behind a separator. -/
def strung (script : Script α) (separator : List Char) (values : List α) : List Char :=
  values.flatMap fun value => separator ++ script.text value

/-- The texts of values with a separator between them. -/
def joined (script : Script α) (separator : List Char) : List α → List Char
  | [] => []
  | value :: values => script.text value ++ script.strung separator values

/-- Values can be written behind a separator, in front of texts that end the sequence of them. -/
structure Strings (script : Script α) (separator : List Char) (last : List Char → Prop) : Prop where
  /-- What ends the sequence is no further value. -/
  apart : ∀ value, script.legible value → ∀ rest, script.ends rest →
    ¬ last (separator ++ (script.text value ++ rest))
  /-- The values may stand behind a value. -/
  follows : ∀ values, (∀ value ∈ values, script.legible value) → ∀ rest, last rest →
    script.ends (script.strung separator values ++ rest)

/-- A value in front of others, behind separators. -/
theorem strung_cons (value : α) (values : List α) (rest : List Char) :
    script.strung separator (value :: values) ++ rest =
      separator ++ (script.text value ++ (script.strung separator values ++ rest)) := by
  simp [strung]

/-- Texts behind separators tell their values. -/
theorem Strings.tells (strings : script.Strings separator last) {values : List α}
    (clear : ∀ value ∈ values, script.Clear value) :
    ∀ others, (∀ other ∈ others, script.legible other) → ∀ rest rest', last rest → last rest' →
      script.strung separator values ++ rest = script.strung separator others ++ rest' →
        values.map script.bare = others.map script.bare ∧ rest = rest' := by
  induction values with
  | nil =>
    intro others legible rest rest' ended ended' same
    cases others with
    | nil => exact ⟨rfl, same⟩
    | cons other others =>
      rw [strung_cons] at same
      have further : rest = _ := same
      obtain ⟨legible_first, legible_behind⟩ := List.forall_mem_cons.mp legible
      rw [further] at ended
      exact absurd ended (strings.apart other legible_first _
        (strings.follows others legible_behind rest' ended'))
  | cons value values ih =>
    intro others legible rest rest' ended ended' same
    rw [strung_cons] at same
    obtain ⟨first, behind⟩ := List.forall_mem_cons.mp clear
    cases others with
    | nil =>
      have further : _ = rest' := same
      rw [← further] at ended'
      exact absurd ended' (strings.apart value first.legible _
        (strings.follows values (fun value found => (behind value found).legible) rest ended))
    | cons other others =>
      obtain ⟨legible_first, legible_behind⟩ := List.forall_mem_cons.mp legible
      rw [strung_cons] at same
      obtain ⟨shown, same⟩ := first.tells other legible_first _ _
        (strings.follows values (fun value found => (behind value found).legible) rest ended)
        (strings.follows others legible_behind rest' ended') (List.append_cancel_left same)
      obtain ⟨shown_behind, same⟩ := ih behind others legible_behind rest rest' ended ended' same
      exact ⟨by rw [List.map_cons, List.map_cons, shown, shown_behind], same⟩

/-- Texts with separators between them tell their values. -/
theorem Strings.joined_tells (strings : script.Strings separator last)
    (begins : ∀ value, script.legible value → ∀ rest, script.ends rest →
      ¬ last (script.text value ++ rest))
    {values : List α} (clear : ∀ value ∈ values, script.Clear value) :
    ∀ others, (∀ other ∈ others, script.legible other) → ∀ rest rest', last rest → last rest' →
      script.joined separator values ++ rest = script.joined separator others ++ rest' →
        values.map script.bare = others.map script.bare ∧ rest = rest' := by
  intro others legible rest rest' ended ended' same
  cases values with
  | nil =>
    cases others with
    | nil => exact ⟨rfl, same⟩
    | cons other others =>
      have further : rest = script.text other ++ (script.strung separator others ++ rest') := by
        rw [← List.append_assoc]
        exact same
      obtain ⟨legible_first, legible_behind⟩ := List.forall_mem_cons.mp legible
      rw [further] at ended
      exact absurd ended (begins other legible_first _
        (strings.follows others legible_behind rest' ended'))
  | cons value values =>
    obtain ⟨first, behind⟩ := List.forall_mem_cons.mp clear
    cases others with
    | nil =>
      have further : script.text value ++ (script.strung separator values ++ rest) = rest' := by
        rw [← List.append_assoc]
        exact same
      rw [← further] at ended'
      exact absurd ended' (begins value first.legible _
        (strings.follows values (fun value found => (behind value found).legible) rest ended))
    | cons other others =>
      obtain ⟨legible_first, legible_behind⟩ := List.forall_mem_cons.mp legible
      rw [joined, joined, List.append_assoc, List.append_assoc] at same
      obtain ⟨shown, same⟩ := first.tells other legible_first _ _
        (strings.follows values (fun value found => (behind value found).legible) rest ended)
        (strings.follows others legible_behind rest' ended') same
      obtain ⟨shown_behind, same⟩ :=
        strings.tells behind others legible_behind rest rest' ended ended' same
      exact ⟨by rw [List.map_cons, List.map_cons, shown, shown_behind], same⟩

end Script

/-- Runs of a class of characters in front of other characters tell each other apart. -/
theorem run_tells {accepts : Char → Bool} {run run' rest rest' : List Char}
    (inside : ∀ c ∈ run, accepts c = true) (inside' : ∀ c ∈ run', accepts c = true)
    (outside : ∀ c ∈ rest.head?, accepts c = false)
    (outside' : ∀ c ∈ rest'.head?, accepts c = false) (same : run ++ rest = run' ++ rest') :
    run = run' ∧ rest = rest' := by
  have runs : run = run' := by
    rw [← takeWhile_run inside outside, same, takeWhile_run inside' outside']
  subst runs
  exact ⟨rfl, List.append_cancel_left same⟩

end ExprLang
