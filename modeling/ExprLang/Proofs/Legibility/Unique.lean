import ExprLang.Proofs.Legibility.Parts
import ExprLang.Proofs.RoundTrip.Again

/-!
# Renderings tell their programs

Two legible programs have one rendering only when they differ in positions only
(`Program.render_eq_iff`). The text of every part of a tree tells the part in front of everything
that can stand behind it, by induction on the tree. An expression is taken together with calls
behind it, so that the induction goes from a call to the expression that it calls.
-/

namespace ExprLang

/-! ## What the parts tell -/

/-- A name tells itself. -/
theorem Ident.clear {ident : Ident} (proper : ident.Proper) : Ident.script.Clear ident where
  legible := proper
  tells := by
    intro other proper_other rest rest' apart apart' same
    obtain ⟨names, same⟩ := run_tells proper.2.1 proper_other.2.1
      (fun c found => (apart c found).1) (fun c found => (apart' c found).1) same
    have same_name : ident.name = other.name := String.toList_injective names
    exact ⟨by simp [Ident.script, Ident.unplaced, same_name], same⟩

/-- The arguments of a call tell themselves. -/
theorem Expr.group_clear {group : List Expr × Position}
    (clear : ∀ value ∈ group.1, Expr.script.Clear value) : Expr.groupScript.Clear group where
  legible value found := (clear value found).legible
  tells := by
    intro other legible rest rest' _ _ same
    have begins : ∀ value, Expr.script.legible value → ∀ rest, Expr.script.ends rest →
        ¬ EndsGroup (Expr.script.text value ++ rest) := by
      rintro value legible rest ended ⟨behind, same⟩
      exact Lexeme.text_ne_sign (Expr.front_kind legible ended.1) (by decide) behind same
    simp only [Expr.groupScript, List.append_assoc] at same
    obtain ⟨shown, same⟩ := Expr.strings.joined_tells begins clear other.1 legible
      (')' :: rest) (')' :: rest') ⟨rest, rfl⟩ ⟨rest', rfl⟩ same
    exact ⟨congrArg (·, Position.origin) shown, (List.cons.inj same).2⟩

/-- The statements of a block tell themselves. -/
theorem Stmt.block_clear {statements : List Stmt}
    (clear : ∀ statement ∈ statements, Stmt.script.Clear statement) :
    Stmt.blockScript.Clear statements where
  legible statement found := (clear statement found).legible
  tells := by
    intro others legible rest rest' _ _ same
    have inside : Stmt.script.strung [' '] statements ++ ' ' :: '}' :: rest =
        Stmt.script.strung [' '] others ++ ' ' :: '}' :: rest' := by
      simpa [Stmt.blockScript] using same
    obtain ⟨shown, same⟩ := Stmt.blockStrings.tells clear others legible _ _ ⟨rest, rfl⟩
      ⟨rest', rfl⟩ inside
    exact ⟨shown, (List.cons.inj (List.cons.inj same).2).2⟩

/-- Expressions with the same text in front of texts that are kept apart have one first lexeme. -/
theorem Expr.lead_eq {value other : Expr} (legible : value.Legible) (legible_other : other.Legible)
    {rest rest' : List Char} (apart : Apart rest) (apart' : Apart rest')
    (same : value.render.toList ++ rest = other.render.toList ++ rest') :
    value.lead = other.lead := by
  rw [← value.front_text legible apart, same, other.front_text legible_other apart']

/-- A name tells itself among the expressions that are no calls. -/
theorem Expr.name_clear {ident : Ident} (proper : ident.Proper) :
    Expr.headScript.Clear (.name ident) where
  legible := ⟨proper, trivial⟩
  tells := by
    rintro other ⟨legible, head⟩ rest rest' apart apart' same
    have written : (Expr.name ident).Legible := proper
    have lead := Expr.lead_eq written legible apart apart' same
    cases other with
    | name other =>
      obtain ⟨shown, same⟩ := (Ident.clear proper).tells other legible _ _ apart apart' same
      exact ⟨congrArg Expr.name shown, same⟩
    | call => exact absurd head id
    | boolean truth => cases truth <;> cases lead
    | _ => cases lead

/-- Integers that are not negative are told by their texts. -/
theorem nonneg_eq_of_toString {value other : Int} (nonneg : 0 ≤ value) (nonneg_other : 0 ≤ other)
    (same : toString value = toString other) : value = other := by
  obtain ⟨number, rfl, text⟩ := nonneg_digits nonneg
  obtain ⟨number', rfl, text'⟩ := nonneg_digits nonneg_other
  have digits : Nat.toDigits 10 number = Nat.toDigits 10 number' := by
    rw [← Nat.toList_repr, ← Nat.toList_repr, ← text, ← text', same]
  have numbers : number = number' := by
    rw [← Nat.ofDigitChars_ten_toDigits (n := number), digits, Nat.ofDigitChars_ten_toDigits]
  rw [numbers]

/-- An integer tells itself among the expressions that are no calls. -/
theorem Expr.integer_clear {value : Int} (nonneg : 0 ≤ value) (position : Position) :
    Expr.headScript.Clear (.integer value position) where
  legible := ⟨nonneg, trivial⟩
  tells := by
    rintro other ⟨legible, head⟩ rest rest' apart apart' same
    have written : (Expr.integer value position).Legible := nonneg
    have lead := Expr.lead_eq written legible apart apart' same
    cases other with
    | integer number =>
      have texts : toString value = toString number := congrArg Lexeme.text lead
      obtain rfl := nonneg_eq_of_toString nonneg legible texts
      exact ⟨rfl, List.append_cancel_left same⟩
    | call => exact absurd head id
    | boolean truth => cases truth <;> cases lead
    | _ => cases lead

/-- A truth value tells itself among the expressions that are no calls. -/
theorem Expr.boolean_clear (value : Bool) (position : Position) :
    Expr.headScript.Clear (.boolean value position) where
  legible := ⟨trivial, trivial⟩
  tells := by
    rintro other ⟨legible, head⟩ rest rest' apart apart' same
    have written : (Expr.boolean value position).Legible := trivial
    have lead := Expr.lead_eq written legible apart apart' same
    cases other with
    | boolean truth =>
      have truths : value = truth := by
        cases value <;> cases truth <;> first | rfl | cases lead
      subst truths
      exact ⟨rfl, List.append_cancel_left same⟩
    | call => exact absurd head id
    | _ => cases value <;> cases lead

/-- A legible expression does not begin with an operator. -/
theorem Expr.text_ne_operator {value : Expr} (legible : value.Legible) {rest : List Char}
    (apart : Apart rest) {operator : String} (listed : operator ∈ ["-", "!"])
    (behind : List Char) : value.render.toList ++ rest ≠ operator.toList ++ behind := by
  intro same
  have kind := Expr.front_kind legible apart
  rw [same] at kind
  simp only [List.mem_cons, List.not_mem_nil, or_false] at listed
  rcases listed with rfl | rfl
  · have minus : Lexeme.front ("-".toList ++ behind) = .ofSingle '-' :=
      Lexeme.front_plain (by decide) behind
    rw [minus] at kind
    exact absurd kind (by decide)
  · by_cases equal : ∃ after, behind = '=' :: after
    · obtain ⟨after, rfl⟩ := equal
      have double : Lexeme.front ("!".toList ++ '=' :: after) = ⟨.notEqual, "!="⟩ := rfl
      rw [double] at kind
      exact absurd kind (by decide)
    · have bang : Lexeme.front ("!".toList ++ behind) = .ofSingle '!' := by
        refine Lexeme.front_sign (by decide) behind fun _ c found same => equal ?_
        obtain ⟨after, shown⟩ := List.head?_eq_some_iff.mp found
        exact ⟨after, by rw [shown, same]⟩
      rw [bang] at kind
      exact absurd kind (by decide)

/-- The text of an operation on one operand. -/
theorem Expr.toList_unary (operator : String) (operand : Expr) (position : Position)
    (rest : List Char) :
    (Expr.unary operator operand position).render.toList ++ rest =
      '(' :: (operator.toList ++ (operand.render.toList ++ ')' :: rest)) := by
  simp [Expr.render]

/-- The text of an operation on two operands. -/
theorem Expr.toList_binary (operator : String) (left right : Expr) (position : Position)
    (rest : List Char) :
    (Expr.binary operator left right position).render.toList ++ rest =
      '(' :: (left.render.toList ++ ' ' :: (operator.toList ++
        ' ' :: (right.render.toList ++ ')' :: rest))) := by
  simp [Expr.render]

/-- An operation on one operand tells itself among the expressions that are no calls. -/
theorem Expr.unary_clear {operator : String} {operand : Expr} (listed : operator ∈ ["-", "!"])
    (inside : Expr.script.Clear operand) (position : Position) :
    Expr.headScript.Clear (.unary operator operand position) where
  legible := ⟨⟨listed, inside.legible⟩, trivial⟩
  tells := by
    rintro other ⟨legible, head⟩ rest rest' apart apart' same
    have written : (Expr.unary operator operand position).Legible := ⟨listed, inside.legible⟩
    have lead := Expr.lead_eq written legible apart apart' same
    simp only [Expr.headScript] at same
    rw [Expr.toList_unary] at same
    cases other with
    | unary other operand' =>
      rw [Expr.toList_unary] at same
      have single : ∀ sign ∈ ["-", "!"], sign.toList.length = 1 := by decide
      have lengths : operator.toList.length = other.toList.length := by
        rw [single operator listed, single other legible.1]
      obtain ⟨operators, operands⟩ := List.append_inj (List.cons.inj same).2 lengths
      obtain rfl : operator = other := String.toList_injective operators
      obtain ⟨shown, closed⟩ := inside.tells operand' legible.2 (')' :: rest) (')' :: rest')
        (.cons (by decide) rest) (.cons (by decide) rest') operands
      exact ⟨congrArg (Expr.unary operator · .origin) shown, (List.cons.inj closed).2⟩
    | binary other left right =>
      rw [Expr.toList_binary] at same
      exact absurd (List.cons.inj same).2.symm
        (Expr.text_ne_operator legible.2.1 (.cons (by decide) _) listed _)
    | call => exact absurd head id
    | boolean truth => cases truth <;> cases lead
    | _ => cases lead

/-- An operation on two operands tells itself among the expressions that are no calls. -/
theorem Expr.binary_clear {operator : String} {left right : Expr}
    (listed : operator ∈ ["+", "-", "*", "/", "<", ">", "==", "!="])
    (first : Expr.script.Clear left) (second : Expr.script.Clear right) (position : Position) :
    Expr.headScript.Clear (.binary operator left right position) where
  legible := ⟨⟨listed, first.legible, second.legible⟩, trivial⟩
  tells := by
    rintro other ⟨legible, head⟩ rest rest' apart apart' same
    have written : (Expr.binary operator left right position).Legible :=
      ⟨listed, first.legible, second.legible⟩
    have lead := Expr.lead_eq written legible apart apart' same
    simp only [Expr.headScript] at same
    rw [Expr.toList_binary] at same
    cases other with
    | unary other operand =>
      rw [Expr.toList_unary] at same
      exact absurd (List.cons.inj same).2
        (Expr.text_ne_operator first.legible (.cons (by decide) _) legible.1 _)
    | binary other left' right' =>
      rw [Expr.toList_binary] at same
      obtain ⟨shown_left, same⟩ := first.tells left' legible.2.1 _ _ (.cons (by decide) _)
        (.cons (by decide) _) (List.cons.inj same).2
      have solid : ∀ sign ∈ ["+", "-", "*", "/", "<", ">", "==", "!="],
          sign.toList.all (· != ' ') = true := by decide
      have left_solid := List.all_eq_true.mp (solid operator listed)
      have right_solid := List.all_eq_true.mp (solid other legible.1)
      have blank : ∀ {behind : List Char}, ∀ c ∈ (' ' :: behind).head?, (c != ' ') = false := by
        rintro behind _ ⟨⟩
        rfl
      obtain ⟨operators, operands⟩ := run_tells left_solid right_solid blank blank
        (List.cons.inj same).2
      obtain rfl : operator = other := String.toList_injective operators
      obtain ⟨shown_right, closed⟩ := second.tells right' legible.2.2 (')' :: rest) (')' :: rest')
        (.cons (by decide) rest) (.cons (by decide) rest') (List.cons.inj operands).2
      exact ⟨congrArg₂ (Expr.binary operator · · .origin) shown_left shown_right,
        (List.cons.inj closed).2⟩
    | call => exact absurd head id
    | boolean truth => cases truth <;> cases lead
    | _ => cases lead

/-- The text of a function. -/
theorem Expr.toList_function (parameters : List Ident) (body : List Stmt) (position : Position)
    (rest : List Char) :
    (Expr.function parameters body position).render.toList ++ rest =
      "fn(".toList ++ (Ident.script.joined [',', ' '] parameters ++
        ')' :: ' ' :: (Stmt.blockScript.text body ++ rest)) := by
  have names := Ident.script.toList_intercalate ", " (fun _ => rfl) parameters
  simp only [Expr.render, String.toList_append, names, Stmt.toList_block]
  simp

/-- A function tells itself among the expressions that are no calls. -/
theorem Expr.function_clear {parameters : List Ident} {body : List Stmt}
    (named : ∀ parameter ∈ parameters, parameter.Proper)
    (inside : Stmt.blockScript.Clear body) (position : Position) :
    Expr.headScript.Clear (.function parameters body position) where
  legible := ⟨⟨named, Stmt.legibleAll_iff.mpr inside.legible⟩, trivial⟩
  tells := by
    rintro other ⟨legible, head⟩ rest rest' apart apart' same
    have written : (Expr.function parameters body position).Legible :=
      ⟨named, Stmt.legibleAll_iff.mpr inside.legible⟩
    have lead := Expr.lead_eq written legible apart apart' same
    cases other with
    | function parameters' body' =>
      simp only [Expr.headScript] at same
      rw [Expr.toList_function, Expr.toList_function] at same
      have begins : ∀ ident, Ident.script.legible ident → ∀ rest, Ident.script.ends rest →
          ¬ EndsGroup (Ident.script.text ident ++ rest) := by
        rintro ident proper rest - ⟨behind, closed⟩
        obtain ⟨c, first, letter⟩ := Ident.Proper.begins proper
        have begins := congrArg List.head? closed
        rw [Ident.script, List.head?_append, first] at begins
        cases begins
        exact absurd letter (by decide)
      obtain ⟨shown_parameters, same⟩ := Ident.strings.joined_tells begins
        (fun ident found => Ident.clear (named ident found)) parameters' legible.1 _ _
        ⟨_, rfl⟩ ⟨_, rfl⟩ (List.append_cancel_left same)
      obtain ⟨shown_body, same⟩ := inside.tells body' (Stmt.legibleAll_iff.mp legible.2) rest rest'
        trivial trivial (List.cons.inj (List.cons.inj same).2).2
      refine ⟨?_, same⟩
      simp only [Expr.headScript, Expr.unplaced, Stmt.unplacedAll_eq_map]
      exact congrArg₂ (Expr.function · · .origin) shown_parameters shown_body
    | call => exact absurd head id
    | boolean truth => cases truth <;> cases lead
    | _ => cases lead

/-- What tells itself among the expressions that are no calls tells itself with calls behind it. -/
theorem Expr.applied_tells {value : Expr} (head : Expr.headScript.Clear value)
    {groups : List (List Expr × Position)}
    (clear : ∀ group ∈ groups, Expr.groupScript.Clear group) :
    Expr.script.Tells (value.applied groups) := by
  have opened : ∀ (groups : List (List Expr × Position)) {rest : List Char}, Shut rest →
      Apart (Expr.groupScript.strung ['('] groups ++ rest) := by
    intro groups rest shut
    cases groups with
    | nil => exact shut.1
    | cons group groups => exact .cons (by decide) _
  intro other legible rest rest' shut shut' same
  obtain ⟨head', groups', legible_head, legible_groups, rfl⟩ := other.exists_applied legible
  simp only [Expr.script] at same ⊢
  rw [Expr.toList_applied, Expr.toList_applied, List.append_assoc, List.append_assoc] at same
  obtain ⟨shown_head, same⟩ := head.tells head' legible_head _ _ (opened groups shut)
    (opened groups' shut') same
  obtain ⟨shown_groups, same⟩ := Expr.groupStrings.tells clear groups' legible_groups rest rest'
    shut shut' same
  have shown : value.unplaced = head'.unplaced := shown_head
  refine ⟨?_, same⟩
  rw [Expr.unplaced_applied, Expr.unplaced_applied, shown, shown_groups]

/-! ## Statements -/

/-- Statements with the same text in front of texts that are kept apart have one first lexeme. -/
theorem Stmt.lead_eq {statement other : Stmt} (legible : statement.Legible)
    (legible_other : other.Legible) {rest rest' : List Char} (apart : Apart rest)
    (apart' : Apart rest')
    (same : statement.render.toList ++ rest = other.render.toList ++ rest') :
    statement.lead = other.lead := by
  rw [← Stmt.front_text legible apart, same, Stmt.front_text legible_other apart']

/-- The text of a binding. -/
theorem Stmt.toList_binding (target : Ident) (value : Expr) (position : Position)
    (rest : List Char) :
    (Stmt.binding target value position).render.toList ++ rest =
      "let ".toList ++ (target.name.toList ++
        ' ' :: '=' :: ' ' :: (value.render.toList ++ ';' :: rest)) := by
  simp [Stmt.render]

/-- The first lexeme of an expression is no word of a statement. -/
theorem Expr.lead_ne {value : Expr} (legible : value.Legible) {lexeme : Lexeme}
    (word : lexeme.kind ∉ Expr.leads) : value.lead ≠ lexeme := by
  rintro rfl
  exact word (value.lead_kind legible)

/-- A binding tells itself. -/
theorem Stmt.binding_clear {target : Ident} {value : Expr} (proper : target.Proper)
    (inside : Expr.script.Clear value) (position : Position) :
    Stmt.script.Clear (.binding target value position) where
  legible := ⟨proper, inside.legible⟩
  tells := by
    intro other legible rest rest' ended ended' same
    have written : (Stmt.binding target value position).Legible := ⟨proper, inside.legible⟩
    have lead := Stmt.lead_eq written legible ended.1.1 ended'.1.1 same
    cases other with
    | binding target' value' =>
      simp only [Stmt.script] at same
      rw [Stmt.toList_binding, Stmt.toList_binding] at same
      obtain ⟨shown_target, same⟩ := (Ident.clear proper).tells target' legible.1 _ _
        (.cons (by decide) _) (.cons (by decide) _) (List.append_cancel_left same)
      have values := (List.cons.inj (List.cons.inj (List.cons.inj same).2).2).2
      obtain ⟨shown_value, same⟩ := inside.tells value' legible.2 (';' :: rest) (';' :: rest')
        (.cons (by decide) rest) (.cons (by decide) rest') values
      exact ⟨congrArg₂ (Stmt.binding · · .origin) shown_target shown_value,
        (List.cons.inj same).2⟩
    | expression other =>
      exact absurd lead.symm (Expr.lead_ne legible (by simp [Stmt.lead, Expr.leads]))
    | _ => cases lead

/-- What stands behind the word of the end of a function. -/
def Stmt.outcome : Option Expr → List Char
  | none => [';']
  | some value => ' ' :: (value.render.toList ++ [';'])

/-- The text of the end of a function. -/
theorem Stmt.toList_result (value : Option Expr) (position : Position) (rest : List Char) :
    (Stmt.result value position).render.toList ++ rest =
      "return".toList ++ (Stmt.outcome value ++ rest) := by
  cases value <;> simp [Stmt.render, Stmt.outcome]

/-- The end of a function tells itself. -/
theorem Stmt.result_clear {value : Option Expr}
    (inside : ∀ result ∈ value, Expr.script.Clear result) (position : Position) :
    Stmt.script.Clear (.result value position) := by
  have written : (Stmt.result value position).Legible := by
    cases value with
    | none => trivial
    | some result => exact (inside result rfl).legible
  refine ⟨written, ?_⟩
  intro other legible rest rest' ended ended' same
  have lead := Stmt.lead_eq written legible ended.1.1 ended'.1.1 same
  cases other with
  | result value' =>
    simp only [Stmt.script] at same
    rw [Stmt.toList_result, Stmt.toList_result] at same
    have outcomes := List.append_cancel_left same
    cases value with
    | none =>
      cases value' with
      | none => exact ⟨rfl, (List.cons.inj outcomes).2⟩
      | some result' => cases outcomes
    | some result =>
      cases value' with
      | none => cases outcomes
      | some result' =>
        simp only [Stmt.outcome, List.cons_append, List.append_assoc] at outcomes
        obtain ⟨shown, same⟩ := (inside result rfl).tells result' legible (';' :: rest)
          (';' :: rest') (.cons (by decide) rest) (.cons (by decide) rest')
          (List.cons.inj outcomes).2
        have shown_result : result.unplaced = result'.unplaced := shown
        refine ⟨?_, (List.cons.inj same).2⟩
        simp only [Stmt.script, Stmt.unplaced, shown_result]
  | expression other =>
    exact absurd lead.symm (Expr.lead_ne legible (by simp [Stmt.lead, Expr.leads]))
  | _ => cases lead

/-- An expression on its own tells itself. -/
theorem Stmt.expression_clear {value : Expr} (inside : Expr.script.Clear value)
    (position : Position) : Stmt.script.Clear (.expression value position) where
  legible := inside.legible
  tells := by
    intro other legible rest rest' ended ended' same
    have written : (Stmt.expression value position).Legible := inside.legible
    have lead := Stmt.lead_eq written legible ended.1.1 ended'.1.1 same
    cases other with
    | expression value' =>
      obtain ⟨shown, same⟩ := inside.tells value' legible rest rest' ended.1 ended'.1 same
      exact ⟨congrArg (Stmt.expression · .origin) shown, same⟩
    | _ => exact absurd lead (Expr.lead_ne inside.legible (by simp [Stmt.lead, Expr.leads]))

/-- What stands behind the first branch of a condition. -/
def Stmt.otherwise : Option (List Stmt) → List Char
  | none => []
  | some alternative => " else ".toList ++ Stmt.blockScript.text alternative

/-- The text of a condition. -/
theorem Stmt.toList_condition (test : Expr) (consequence : List Stmt)
    (alternative : Option (List Stmt)) (position : Position) (rest : List Char) :
    (Stmt.condition test consequence alternative position).render.toList ++ rest =
      "if (".toList ++ (test.render.toList ++ ')' :: ' ' ::
        (Stmt.blockScript.text consequence ++ (Stmt.otherwise alternative ++ rest))) := by
  cases alternative <;>
    simp only [Stmt.render, String.toList_append, Stmt.toList_block, Stmt.otherwise] <;> simp

/-- A condition tells itself. -/
theorem Stmt.condition_clear {test : Expr} {consequence : List Stmt}
    {alternative : Option (List Stmt)} (tested : Expr.script.Clear test)
    (first : Stmt.blockScript.Clear consequence)
    (second : ∀ branch ∈ alternative, Stmt.blockScript.Clear branch) (position : Position) :
    Stmt.script.Clear (.condition test consequence alternative position) := by
  have written : (Stmt.condition test consequence alternative position).Legible := by
    have legible_first := Stmt.legibleAll_iff.mpr first.legible
    cases alternative with
    | none => exact ⟨tested.legible, legible_first⟩
    | some branch =>
      exact ⟨tested.legible, legible_first, Stmt.legibleAll_iff.mpr (second branch rfl).legible⟩
  refine ⟨written, ?_⟩
  intro other legible rest rest' ended ended' same
  have lead := Stmt.lead_eq written legible ended.1.1 ended'.1.1 same
  cases other with
  | condition test' consequence' alternative' =>
    have legible_test : test'.Legible := by cases alternative' <;> exact legible.1
    have legible_first : Stmt.LegibleAll consequence' := by
      cases alternative' with
      | none => exact legible.2
      | some branch => exact legible.2.1
    simp only [Stmt.script] at same
    rw [Stmt.toList_condition, Stmt.toList_condition] at same
    obtain ⟨shown_test, same⟩ := tested.tells test' legible_test _ _ (.cons (by decide) _)
      (.cons (by decide) _) (List.append_cancel_left same)
    obtain ⟨shown_first, same⟩ := first.tells consequence' (Stmt.legibleAll_iff.mp legible_first)
      _ _ trivial trivial (List.cons.inj (List.cons.inj same).2).2
    have shown_test : test.unplaced = test'.unplaced := shown_test
    have shown_first : consequence.map Stmt.unplaced = consequence'.map Stmt.unplaced := shown_first
    cases alternative with
    | none =>
      cases alternative' with
      | none =>
        refine ⟨?_, same⟩
        simp only [Stmt.script, Stmt.unplaced, Stmt.unplacedAll_eq_map, shown_test, shown_first]
      | some branch' =>
        rw [Stmt.otherwise, Stmt.otherwise, List.append_assoc] at same
        exact absurd same (ended.2 _)
    | some branch =>
      cases alternative' with
      | none =>
        rw [Stmt.otherwise, Stmt.otherwise, List.append_assoc] at same
        exact absurd same.symm (ended'.2 _)
      | some branch' =>
        rw [Stmt.otherwise, Stmt.otherwise, List.append_assoc, List.append_assoc] at same
        obtain ⟨shown_second, same⟩ := (second branch rfl).tells branch'
          (Stmt.legibleAll_iff.mp legible.2.2) rest rest' trivial trivial
          (List.append_cancel_left same)
        have shown_second : branch.map Stmt.unplaced = branch'.map Stmt.unplaced := shown_second
        refine ⟨?_, same⟩
        simp only [Stmt.script, Stmt.unplaced, Stmt.unplacedAll_eq_map, shown_test, shown_first,
          shown_second]
  | expression other =>
    exact absurd lead.symm (Expr.lead_ne legible (by simp [Stmt.lead, Expr.leads]))
  | _ => cases lead

/-! ## Trees -/

mutual

/-- An expression with calls behind it tells itself. -/
theorem Expr.tells : (value : Expr) → value.Legible → ∀ groups : List (List Expr × Position),
    (∀ group ∈ groups, Expr.groupScript.Clear group) → Expr.script.Tells (value.applied groups)
  | .name _, legible, _, clear => Expr.applied_tells (Expr.name_clear legible) clear
  | .integer _ position, legible, _, clear =>
    Expr.applied_tells (Expr.integer_clear legible position) clear
  | .boolean value position, _, _, clear =>
    Expr.applied_tells (Expr.boolean_clear value position) clear
  | .unary _ operand position, ⟨listed, legible⟩, _, clear =>
    have inside : Expr.script.Clear operand := ⟨legible, Expr.tells operand legible [] nofun⟩
    Expr.applied_tells (Expr.unary_clear listed inside position) clear
  | .binary _ left right position, ⟨listed, legible_left, legible_right⟩, _, clear =>
    have first : Expr.script.Clear left := ⟨legible_left, Expr.tells left legible_left [] nofun⟩
    have second : Expr.script.Clear right :=
      ⟨legible_right, Expr.tells right legible_right [] nofun⟩
    Expr.applied_tells (Expr.binary_clear listed first second position) clear
  | .call callee arguments position, ⟨legible, legible_arguments⟩, groups, clear =>
    have inside : Expr.groupScript.Clear (arguments, position) :=
      Expr.group_clear (Expr.clearAll arguments legible_arguments)
    Expr.tells callee legible ((arguments, position) :: groups)
      (List.forall_mem_cons.mpr ⟨inside, clear⟩)
  | .function _ body position, ⟨named, legible⟩, _, clear =>
    have inside : Stmt.blockScript.Clear body := Stmt.block_clear (Stmt.clearAll body legible)
    Expr.applied_tells (Expr.function_clear named inside position) clear
  | .missing _, legible, _, _ => absurd legible id

/-- Each of several expressions tells itself. -/
theorem Expr.clearAll : (values : List Expr) → Expr.LegibleAll values →
    ∀ value ∈ values, Expr.script.Clear value
  | [], _ => fun _ found => absurd found List.not_mem_nil
  | value :: values, ⟨legible, legible_others⟩ =>
    List.forall_mem_cons.mpr
      ⟨⟨legible, Expr.tells value legible [] nofun⟩, Expr.clearAll values legible_others⟩

/-- A statement tells itself. -/
theorem Stmt.clear : (statement : Stmt) → statement.Legible → Stmt.script.Clear statement
  | .binding _ value position, ⟨proper, legible⟩ =>
    Stmt.binding_clear proper ⟨legible, Expr.tells value legible [] nofun⟩ position
  | .result none position, _ => Stmt.result_clear (by rintro _ ⟨⟩) position
  | .result (some value) position, legible =>
    have inside : Expr.script.Clear value := ⟨legible, Expr.tells value legible [] nofun⟩
    Stmt.result_clear (by rintro _ ⟨⟩; exact inside) position
  | .expression value position, legible =>
    Stmt.expression_clear ⟨legible, Expr.tells value legible [] nofun⟩ position
  | .condition test consequence none position, ⟨legible, legible_first⟩ =>
    Stmt.condition_clear ⟨legible, Expr.tells test legible [] nofun⟩
      (Stmt.block_clear (Stmt.clearAll consequence legible_first)) (by rintro _ ⟨⟩) position
  | .condition test consequence (some alternative) position,
      ⟨legible, legible_first, legible_second⟩ =>
    have second : Stmt.blockScript.Clear alternative :=
      Stmt.block_clear (Stmt.clearAll alternative legible_second)
    Stmt.condition_clear ⟨legible, Expr.tells test legible [] nofun⟩
      (Stmt.block_clear (Stmt.clearAll consequence legible_first))
      (by rintro _ ⟨⟩; exact second) position

/-- Each of several statements tells itself. -/
theorem Stmt.clearAll : (statements : List Stmt) → Stmt.LegibleAll statements →
    ∀ statement ∈ statements, Stmt.script.Clear statement
  | [], _ => fun _ found => absurd found List.not_mem_nil
  | statement :: statements, ⟨legible, _, legible_others⟩ =>
    List.forall_mem_cons.mpr
      ⟨Stmt.clear statement legible, Stmt.clearAll statements legible_others⟩

end

/-! ## Programs -/

/-- The text of a program. -/
theorem Program.toList_render (program : Program) :
    program.render.toList = Stmt.script.joined ['\n'] program.statements := by
  rw [Program.render, Stmt.renderAll_eq_map]
  exact Stmt.script.toList_intercalate "\n" (fun _ => rfl) program.statements

/-- Two legible programs have the same rendering exactly when they differ in positions only. -/
theorem Program.render_eq_iff {left right : Program} (legible : Stmt.LegibleAll left.statements)
    (legible_right : Stmt.LegibleAll right.statements) :
    left.render = right.render ↔ left.same right = true := by
  constructor
  · intro same
    have begins : ∀ statement, Stmt.script.legible statement → ∀ rest, Stmt.script.ends rest →
        Stmt.script.text statement ++ rest ≠ [] := by
      intro statement legible rest ended empty
      have kind : (Lexeme.front (Stmt.script.text statement ++ rest)).kind ∈ Stmt.leads :=
        Stmt.front_kind legible ended.1.1
      rw [empty] at kind
      exact absurd kind (by decide)
    have texts := congrArg String.toList same
    rw [Program.toList_render, Program.toList_render] at texts
    have shown := (Stmt.lineStrings.joined_tells begins
      (Stmt.clearAll left.statements legible) right.statements
      (Stmt.legibleAll_iff.mp legible_right) [] [] rfl rfl (by simpa using texts)).1
    rw [Program.same_iff, Program.unplaced, Program.unplaced, Stmt.unplacedAll_eq_map,
      Stmt.unplacedAll_eq_map]
    exact congrArg Program.mk shown
  · exact Program.render_same

/-- Two expressions, one behind the other. -/
def Program.neighbours : Program := ⟨[
  .expression (.name ⟨"a", .origin⟩) .origin,
  .expression (.unary "-" (.name ⟨"b", .origin⟩) .origin) .origin]⟩

/-- A call of the first of two expressions on the second one. -/
def Program.called : Program := ⟨[
  .expression (.call (.name ⟨"a", .origin⟩) [.unary "-" (.name ⟨"b", .origin⟩) .origin] .origin)
    .origin]⟩

/-- The rendering of two neighbours is not the one of a call, although both open a parenthesis
behind the same name. -/
theorem Program.render_neighbours_called :
    Stmt.LegibleAll neighbours.statements ∧ Stmt.LegibleAll called.statements ∧
      (neighbours.render = called.render ↔ neighbours.same called = true) := by
  have first : Ident.Proper ⟨"a", .origin⟩ := by decide
  have second : Ident.Proper ⟨"b", .origin⟩ := by decide
  have legible : Stmt.LegibleAll neighbours.statements :=
    ⟨first, fun _ _ => trivial, ⟨by decide, second⟩, fun _ _ => trivial, trivial⟩
  have legible_called : Stmt.LegibleAll called.statements :=
    ⟨⟨first, ⟨by decide, second⟩, trivial⟩, fun _ _ => trivial, trivial⟩
  exact ⟨legible, legible_called, Program.render_eq_iff legible legible_called⟩

end ExprLang
