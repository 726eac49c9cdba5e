import ExprLang.Session.Draft

/-!
# Lines and entries

The lines of a session are divided into entries, and what is left behind the last of them ends the
session. An entry is told without the draft that collects it: it is the first beginning of the
lines that has no more opening than closing braces. So every list of lines has exactly one division
(`Divides.unique`); the draft of a session finds it (`Draft.Holds`).
-/

namespace ExprLang

/-- How many more opening than closing braces some lines have. -/
def balance : List String → Int
  | [] => 0
  | line :: lines => braceBalance line + balance lines

/-- Every beginning of the lines leaves a brace open. -/
def Unclosed (lines : List String) : Prop :=
  ∀ first, first ≠ [] → first <+: lines → 0 < balance first

/-- Lines that make one entry: at their end, and not before, no brace is left open. -/
structure IsEntry (lines : List String) : Prop where
  /-- There is a line. -/
  nonempty : lines ≠ []
  /-- No brace is left open. -/
  closed : balance lines ≤ 0
  /-- Every shorter beginning leaves a brace open. -/
  least : ∀ first, first ≠ [] → first <+: lines → first ≠ lines → 0 < balance first

/-- The first of the lines, if there is one, does not end a session. -/
def Stays (lines : List String) : Prop := ∀ line ∈ lines.head?, Text.trimmed line ∉ farewells

/-- What is behind the entries of a session. -/
inductive Closing where
  /-- A line that ends the session, and lines that nobody reads. -/
  | farewell (line : String) (unread : List String)
  /-- Lines of an entry that is never complete. -/
  | exhausted (unfinished : List String)

namespace Closing

/-- The lines behind the entries. -/
def lines : Closing → List String
  | farewell line unread => line :: unread
  | exhausted unfinished => unfinished

/-- The lines that nobody reads. -/
def unread : Closing → List String
  | farewell _ unread => unread
  | exhausted _ => []

/-- What the user sees at the end. -/
def output : Closing → String
  | farewell _ _ => "Exiting vvlang REPL.\n"
  | exhausted _ => "\nExiting vvlang REPL.\n"

/-- The lines end a session the way they are said to. -/
def Valid : Closing → Prop
  | farewell line _ => Text.trimmed line ∈ farewells
  | exhausted unfinished => Unclosed unfinished ∧ Stays unfinished

end Closing

/-- A division of lines into entries and what is behind them. -/
structure Divides (lines : List String) (entries : List (List String)) (closing : Closing) :
    Prop where
  /-- No line is lost, doubled or moved. -/
  whole : lines = entries.flatten ++ closing.lines
  /-- The entries are complete, and none of them begins with a line that ends the session. -/
  entries : ∀ entry ∈ entries, IsEntry entry ∧ Stays entry
  /-- What is behind them ends the session. -/
  closing : closing.Valid

/-! ## Braces of lines -/

/-- Without lines there is no brace. -/
@[simp]
theorem balance_nil : balance [] = 0 := rfl

/-- The braces of some lines and of others behind them. -/
@[simp]
theorem balance_append (first second : List String) :
    balance (first ++ second) = balance first + balance second := by
  induction first with
  | nil => simp [balance]
  | cons line lines ih =>
    simp only [List.cons_append, balance, ih]
    omega

/-- The braces of a line. -/
@[simp]
theorem balance_singleton (line : String) : balance [line] = braceBalance line := by
  simp [balance]

/-- No line leaves no brace open. -/
theorem Unclosed.nil : Unclosed [] :=
  fun _ solid beginning => absurd (List.prefix_nil.mp beginning) solid

/-- A further line that leaves a brace open. -/
theorem Unclosed.push {lines : List String} {line : String} (unclosed : Unclosed lines)
    (more : 0 < balance (lines ++ [line])) : Unclosed (lines ++ [line]) := by
  intro first solid beginning
  rcases List.prefix_concat_iff.mp beginning with rfl | shorter
  · exact more
  · exact unclosed first solid shorter

/-- A further line that leaves no brace open completes an entry. -/
theorem Unclosed.entry {lines : List String} {line : String} (unclosed : Unclosed lines)
    (closed : balance (lines ++ [line]) ≤ 0) : IsEntry (lines ++ [line]) := by
  refine ⟨by simp, closed, fun first solid beginning shorter => ?_⟩
  rcases List.prefix_concat_iff.mp beginning with whole | inside
  · exact absurd whole shorter
  · exact unclosed first solid inside

/-- The first line stays the first one. -/
theorem Stays.push {lines : List String} {line : String} (stays : Stays lines)
    (first : lines = [] → Text.trimmed line ∉ farewells) : Stays (lines ++ [line]) := by
  intro head found
  cases lines with
  | nil =>
    obtain rfl : line = head := Option.some.inj found
    exact first rfl
  | cons other lines => exact stays head found

/-! ## One division -/

/-- Two entries at the beginning of the same lines are the same. -/
theorem IsEntry.unique {left right : List String} (entry : IsEntry left) (other : IsEntry right)
    {lines : List String} (begins : left <+: lines) (begins' : right <+: lines) :
    left = right := by
  by_cases same : left = right
  · exact same
  exfalso
  rcases List.prefix_or_prefix_of_prefix begins begins' with shorter | shorter
  · have open_brace := other.least left entry.nonempty shorter same
    have closed := entry.closed
    omega
  · have open_brace := entry.least right other.nonempty shorter (Ne.symm same)
    have closed := other.closed
    omega

/-- What ends a session does not begin with an entry. -/
theorem Closing.Valid.no_entry {closing : Closing} (valid : closing.Valid) {entry : List String}
    (complete : IsEntry entry) (stays : Stays entry) : ¬ entry <+: closing.lines := by
  intro beginning
  cases closing with
  | farewell line unread =>
    obtain ⟨first, behind, rfl⟩ := List.exists_cons_of_ne_nil complete.nonempty
    obtain ⟨rfl, -⟩ := List.cons_prefix_cons.mp beginning
    exact stays first rfl valid
  | exhausted unfinished =>
    have open_brace := valid.1 entry complete.nonempty beginning
    have closed := complete.closed
    omega

/-- Lines end a session in one way. -/
theorem Closing.Valid.unique {left right : Closing} (valid : left.Valid) (valid' : right.Valid)
    (same : left.lines = right.lines) : left = right := by
  cases left with
  | farewell line unread =>
    cases right with
    | farewell line' unread' =>
      obtain ⟨rfl, rfl⟩ := List.cons.inj same
      rfl
    | exhausted unfinished =>
      obtain rfl : line :: unread = unfinished := same
      exact absurd valid (valid'.2 line rfl)
  | exhausted unfinished =>
    cases right with
    | farewell line unread =>
      obtain rfl : unfinished = line :: unread := same
      exact absurd valid' (valid.2 line rfl)
    | exhausted unfinished' =>
      obtain rfl : unfinished = unfinished' := same
      rfl

namespace Divides

variable {lines : List String} {entries entries' : List (List String)} {closing closing' : Closing}

/-- A division without its first entry. -/
theorem tail {entry : List String} (divides : Divides lines (entry :: entries) closing) :
    Divides (entries.flatten ++ closing.lines) entries closing :=
  ⟨rfl, fun other found => divides.entries other (List.mem_cons_of_mem _ found), divides.closing⟩

/-- A division with one more entry in front. -/
theorem cons {entry : List String} (complete : IsEntry entry) (stays : Stays entry)
    (divides : Divides lines entries closing) :
    Divides (entry ++ lines) (entry :: entries) closing := by
  refine ⟨?_, fun other found => ?_, divides.closing⟩
  · rw [List.flatten_cons, List.append_assoc, ← divides.whole]
  · rcases List.mem_cons.mp found with rfl | behind
    · exact ⟨complete, stays⟩
    · exact divides.entries other behind

/-- Lines have one division. -/
theorem unique (divides : Divides lines entries closing)
    (divides' : Divides lines entries' closing') : entries = entries' ∧ closing = closing' := by
  induction entries generalizing lines entries' with
  | nil =>
    have whole : lines = closing.lines := divides.whole
    cases entries' with
    | nil =>
      have same : closing.lines = closing'.lines := whole.symm.trans divides'.whole
      exact ⟨rfl, divides.closing.unique divides'.closing same⟩
    | cons entry entries' =>
      obtain ⟨complete, stays⟩ := divides'.entries entry List.mem_cons_self
      refine absurd ?_ (divides.closing.no_entry complete stays)
      rw [← whole, divides'.whole, List.flatten_cons, List.append_assoc]
      exact List.prefix_append _ _
  | cons entry entries ih =>
    obtain ⟨complete, stays⟩ := divides.entries entry List.mem_cons_self
    have begins : entry <+: lines := by
      rw [divides.whole, List.flatten_cons, List.append_assoc]
      exact List.prefix_append _ _
    cases entries' with
    | nil =>
      have whole : lines = closing'.lines := divides'.whole
      exact absurd (whole ▸ begins) (divides'.closing.no_entry complete stays)
    | cons entry' entries' =>
      have complete' := (divides'.entries entry' List.mem_cons_self).1
      have begins' : entry' <+: lines := by
        rw [divides'.whole, List.flatten_cons, List.append_assoc]
        exact List.prefix_append _ _
      obtain rfl := complete.unique complete' begins begins'
      have behind : entries.flatten ++ closing.lines = entries'.flatten ++ closing'.lines := by
        have split := divides.whole.symm.trans divides'.whole
        rw [List.flatten_cons, List.flatten_cons, List.append_assoc, List.append_assoc] at split
        exact List.append_cancel_left split
      obtain ⟨rfl, same⟩ := ih divides.tail (behind ▸ divides'.tail)
      exact ⟨rfl, same⟩

end Divides

/-! ## Drafts -/

/-- A draft holds the lines of an entry that is not complete. -/
structure Draft.Holds (draft : Draft) : Prop where
  /-- The draft knows the braces of its lines. -/
  balanced : draft.balance = ExprLang.balance draft.lines
  /-- The entry is not complete. -/
  unclosed : Unclosed draft.lines
  /-- The entry does not begin with a line that ends the session. -/
  stays : Stays draft.lines

/-- What a line does to a draft: in front of an entry it may end the session, and else it completes
the entry or leaves a brace open. -/
inductive Draft.Added (draft : Draft) (line : String) : DraftStep → Prop where
  /-- The line ends the session. -/
  | leave (first : draft.lines = []) (farewell : Text.trimmed line ∈ farewells) :
      Draft.Added draft line .leave
  /-- The line completes the entry. -/
  | entry (complete : IsEntry (draft.lines ++ [line])) (stays : Stays (draft.lines ++ [line])) :
      Draft.Added draft line (.entry ("\n".intercalate (draft.lines ++ [line])))
  /-- The entry goes on. -/
  | more {longer : Draft} (lines : longer.lines = draft.lines ++ [line]) (holds : longer.Holds) :
      Draft.Added draft line (.more longer)

/-- A draft finds the end of its entry. -/
theorem Draft.Holds.add {draft : Draft} (holds : draft.Holds) (line : String) :
    Draft.Added draft line (draft.add line) := by
  have sum : ExprLang.balance (draft.lines ++ [line]) = draft.balance + braceBalance line := by
    rw [balance_append, balance_singleton, holds.balanced]
  unfold Draft.add
  by_cases leaves : draft.lines = [] ∧ Text.trimmed line ∈ farewells
  · rw [if_pos leaves]
    exact .leave leaves.1 leaves.2
  · rw [if_neg leaves]
    have stays := holds.stays.push fun first farewell => leaves ⟨first, farewell⟩
    dsimp only
    by_cases closed : draft.balance + braceBalance line ≤ 0
    · rw [if_pos closed]
      exact .entry (holds.unclosed.entry (by omega)) stays
    · rw [if_neg closed]
      exact .more rfl ⟨sum.symm, holds.unclosed.push (by omega), stays⟩

end ExprLang
