import Mathlib.Data.List.Nodup
import ExprLang.Proofs.Reading.Extent

/-!
# Cutting a program between statements

Where the tokens of a program are cut in front of the first token of a statement, both parts are
programs, and their statements are those of the whole (`ReadsProgram.cut`). The statement in front
of the cut does not see the tokens behind it any more. It is over all the same: no statement goes
on where another one begins (`Reads.statement_permits`).
-/

namespace ExprLang

/-- Where a statement begins. -/
def Stmt.position : Stmt → Position
  | .binding _ _ position => position
  | .result _ position => position
  | .expression _ position => position
  | .condition _ _ _ position => position

/-- Only the lowest level is not above the lowest one. -/
theorem Precedence.eq_lowest {above : Precedence} (loose : ¬ lowest < above) : above = lowest := by
  cases above <;> first | rfl | exact absurd (by decide) loose

namespace Parser

/-! ## Where statements begin and end -/

/-- A statement begins at its first token. -/
theorem Reads.statement_position {value : Stmt} {levels : Nat} {tokens rest : List Token}
    (reads : Reads (.statement value) levels tokens rest) :
    ∃ first behind, tokens = first :: behind ∧ value.position = first.position := by
  cases reads with
  | unterminated => exact ⟨_, _, rfl, rfl⟩
  | _ => exact ⟨_, _, rfl, rfl⟩

/-- A statement begins among the tokens in front. -/
theorem Reads.position_mem {value : Stmt} {levels : Nat} {front back rest : List Token}
    (reads : Reads (.statement value) levels (front ++ back) rest) (some_tokens : front ≠ []) :
    value.position ∈ front.map (·.position) := by
  obtain ⟨token, front, rfl⟩ := List.exists_cons_of_ne_nil some_tokens
  obtain ⟨first, behind, same, here⟩ := reads.statement_position
  obtain rfl : token = first := (List.cons.inj same).1
  rw [here]
  exact List.mem_cons_self

/-- Every statement of a program begins at a token. -/
theorem ReadsProgram.position_mem {levels : Nat} {tokens : List Token} {values : List Stmt}
    (reads : ReadsProgram levels tokens values) {value : Stmt} (member : value ∈ values) :
    value.position ∈ tokens.map (·.position) := by
  induction reads with
  | done => exact absurd member List.not_mem_nil
  | next first _ ih =>
    obtain ⟨used, rfl, ends, -⟩ := first.extent
    rw [List.map_append]
    rcases List.mem_cons.mp member with rfl | behind
    · exact List.mem_append_left _ (first.position_mem ends.1)
    · exact List.mem_append_right _ (ih behind)

/-- A program with tokens begins with a token that begins a statement or an operand. -/
theorem ReadsProgram.begins {levels : Nat} {tokens : List Token} {values : List Stmt}
    (reads : ReadsProgram levels tokens values) (some_tokens : tokens ≠ []) :
    (headKind tokens).startsStatement = true ∨ (headKind tokens).startsOperand = true := by
  cases reads with
  | done => exact absurd rfl some_tokens
  | next first _ => exact first.statement_begins

/-- Operators end in front of a token that binds no tighter. -/
theorem Reads.operators_stop {above : Precedence} {left value : Expr} {levels : Nat}
    {tokens rest : List Token} (reads : Reads (.operators above left value) levels tokens rest) :
    ¬ above < .ofKind (headKind rest) := by
  generalize same : Phrase.operators above left value = phrase at reads
  induction reads generalizing left with
  | noOperator looser =>
    cases same
    exact looser
  | binary _ _ _ _ _ more =>
    cases same
    exact more rfl
  | call _ _ _ _ _ more =>
    cases same
    exact more rfl
  | _ => cases same

/-- An expression ends in front of a token that binds no tighter. -/
theorem Reads.expression_stops {above : Precedence} {value : Expr} {levels : Nat}
    {tokens rest : List Token} (reads : Reads (.expression above value) levels tokens rest) :
    ¬ above < .ofKind (headKind rest) := by
  cases reads with
  | expression _ more => exact more.operators_stop

/-- The last token that is passed. -/
theorem lastKind_of_split {used before rest : List Token} {close : Token}
    (split : used ++ rest = before ++ close :: rest) : lastKind used = some close.kind := by
  have same : used = before ++ [close] := by
    apply List.append_cancel_right
    rw [split, List.append_assoc]
    rfl
  rw [same]
  exact lastKind_append before (lastKind_singleton close)

/-- A statement in front of the beginning of another one may stand in front of any token that goes
on with no statement: the end, or one that binds nothing and is no semicolon and no further
branch. -/
theorem Reads.statement_permits {value : Stmt} {levels : Nat} {used rest : List Token}
    (reads : Reads (.statement value) levels (used ++ rest) rest)
    (following : (headKind rest).startsStatement = true ∨ (headKind rest).startsOperand = true)
    {other : List Token} (binds : Precedence.ofKind (headKind other) = .lowest)
    (closes : headKind other ≠ .semicolon) (goes_on : headKind other ≠ .elseWord) :
    (Phrase.statement value).Permits used rest other := by
  -- a statement is over with its semicolon or its brace; only an expression without a semicolon
  -- looks at what follows, and that binds no tighter than the other token
  generalize whole : used ++ rest = tokens at reads
  cases reads with
  | @binding keyword target sign close _ _ _ _ _ _ _ inside closing =>
    obtain ⟨passed, rfl, -⟩ := inside.extent
    refine .inr (.inl ?_)
    rw [@lastKind_of_split _ (keyword :: target :: sign :: passed) _ _ whole, closing]
  | @bareResult keyword close _ _ closing =>
    refine .inr (.inl ?_)
    rw [@lastKind_of_split _ [keyword] _ _ whole, closing]
  | @result keyword close _ _ _ _ _ inside closing =>
    obtain ⟨passed, rfl, -⟩ := inside.extent
    refine .inr (.inl ?_)
    rw [@lastKind_of_split _ (keyword :: passed) _ _ whole, closing]
  | terminated inside closing =>
    obtain ⟨passed, same, -⟩ := inside.extent
    refine .inr (.inl ?_)
    rw [lastKind_of_split (whole.trans same), closing]
  | unterminated inside open_end =>
    have loose := Precedence.eq_lowest inside.expression_stops
    have begins : headKind rest ≠ .elseWord := by
      intro same
      rw [same] at following
      exact absurd following (by decide)
    refine .inl ⟨binds.trans loose.symm, ?_, ?_⟩
    · exact iff_of_false closes open_end
    · exact iff_of_false goes_on begins
  | condition => exact .inr (.inr ⟨rfl, goes_on⟩)
  | alternative => exact .inr (.inr ⟨rfl, goes_on⟩)

/-! ## Cutting -/

section

variable {front back : List Token}

/-- Where no two tokens are at one place, no place in front of a cut is one behind it. -/
theorem not_mem_behind (apart : ((front ++ back).map (·.position)).Nodup) {position : Position}
    (ahead : position ∈ front.map (·.position)) : position ∉ back.map (·.position) := by
  rw [List.map_append] at apart
  exact fun behind => List.disjoint_of_nodup_append apart ahead behind

/-- The tokens behind a cut are at places of their own. -/
theorem apart_behind (apart : ((front ++ back).map (·.position)).Nodup) :
    (back.map (·.position)).Nodup := by
  rw [List.map_append] at apart
  exact (List.nodup_append.mp apart).2.1

end

/-- The first statement of a program is read alike in front of a part of the tokens behind it, where
the tokens behind this part begin a statement. -/
theorem Reads.statement_cut {value : Stmt} {levels : Nat} {used part rest : List Token}
    (reads : Reads (.statement value) levels (used ++ (part ++ rest)) (part ++ rest))
    (following : rest ≠ [] →
      (headKind rest).startsStatement = true ∨ (headKind rest).startsOperand = true) :
    Reads (.statement value) levels (used ++ part) part := by
  apply reads.exchange
  cases part with
  | cons token part => exact .inl (.of_head rfl)
  | nil =>
    by_cases ended : rest = []
    · subst ended
      exact .inl (.of_head rfl)
    · exact reads.statement_permits (following ended) rfl nofun nofun

/-- A cut in front of a token where a statement begins is not inside the first statement. -/
theorem Reads.not_inside {value : Stmt} {values : List Stmt} {near far : Nat}
    {front inside middle : List Token}
    (first : Reads (.statement value) near (front ++ (inside ++ middle)) middle)
    (more : ReadsProgram far middle values)
    (apart : ((front ++ (inside ++ middle)).map (·.position)).Nodup) (some_front : front ≠ [])
    (begins : ∀ token ∈ inside.head?, ∃ other ∈ value :: values, other.position = token.position) :
    inside = [] := by
  cases inside with
  | nil => rfl
  | cons token inside =>
    exfalso
    have here : token.position ∈ (token :: inside).map (·.position) := List.mem_cons_self
    obtain ⟨other, member, same⟩ := begins token rfl
    rcases List.mem_cons.mp member with rfl | later
    · have ahead := first.position_mem some_front
      rw [same] at ahead
      apply not_mem_behind apart ahead
      rw [List.map_append]
      exact List.mem_append_left _ here
    · have late := more.position_mem later
      rw [same] at late
      exact not_mem_behind (apart_behind apart) here late

/-- A program that is cut in front of a token where one of its statements begins falls into two
programs, which have its statements. -/
theorem ReadsProgram.cut {levels : Nat} {used rest : List Token} {values : List Stmt}
    (reads : ReadsProgram levels (used ++ rest) values)
    (apart : ((used ++ rest).map (·.position)).Nodup)
    (begins : ∀ token ∈ rest.head?, ∃ value ∈ values, value.position = token.position) :
    ∃ near far front back, values = front ++ back ∧ near ≤ levels ∧ far ≤ levels ∧
      ReadsProgram near used front ∧ ReadsProgram far rest back := by
  generalize whole : used ++ rest = tokens at reads apart
  induction reads generalizing used with
  | done =>
    obtain ⟨rfl, rfl⟩ := List.append_eq_nil_iff.mp whole
    exact ⟨0, 0, [], [], rfl, Nat.le_refl 0, Nat.le_refl 0, .done, .done⟩
  | @next near far tokens middle value values first more ih =>
    by_cases empty : used = []
    · subst empty
      obtain rfl : rest = tokens := whole
      exact ⟨0, _, [], value :: values, rfl, Nat.zero_le _, Nat.le_refl _, .done, .next first more⟩
    obtain ⟨passed, rfl, ends, -⟩ := first.extent
    -- the first statement is in front of the cut as a whole
    obtain ⟨part, rfl, rfl⟩ : ∃ part, used = passed ++ part ∧ middle = part ++ rest := by
      rcases List.append_eq_append_iff.mp whole with ⟨inside, rfl, rfl⟩ | ⟨part, rfl, rfl⟩
      · rw [List.append_assoc] at first apart
        have ahead : ∀ token ∈ inside.head?, token ∈ (inside ++ middle).head? := by
          intro token found
          rw [List.head?_append, Option.mem_def.mp found]
          rfl
        have none := first.not_inside more apart empty fun token found =>
          begins token (ahead token found)
        subst none
        exact ⟨[], by simp, rfl⟩
      · exact ⟨part, rfl, rfl⟩
    -- so the statement that begins at the cut is one of those behind the first
    have later : ∀ token ∈ rest.head?, ∃ other ∈ values, other.position = token.position := by
      intro token found
      obtain ⟨other, member, same⟩ := begins token found
      rcases List.mem_cons.mp member with rfl | behind
      · exfalso
        have here := first.position_mem ends.1
        rw [same] at here
        apply not_mem_behind apart here
        rw [List.map_append]
        exact List.mem_append_right _ (List.mem_map_of_mem (List.mem_of_head? found))
      · exact ⟨other, behind, same⟩
    obtain ⟨low, high, front, back, rfl, fits, fits_behind, left, right⟩ :=
      ih later rfl (apart_behind apart)
    refine ⟨max near low, high, value :: front, back, rfl, by omega, by omega, ?_, right⟩
    exact .next (first.statement_cut right.begins) left

end Parser

end ExprLang
