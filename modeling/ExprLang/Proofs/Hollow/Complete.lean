import ExprLang.Proofs.Hollow.Run

/-!
# Every expression has a context

A context is told along the tokens. Where a tree is read from tokens, each expression in it that is
a whole one, and no left operand or callee, has one: some of the tokens are those of the expression,
and those around them are a context of it (`Reads.surrounded`, `ReadsProgram.surrounded`).
-/

namespace ExprLang.Parser

/-- Where an expression occurs in a tree, with what it is for the tree directly around it. A left
operand and a callee are no whole expressions, but there may be whole ones in them. -/
inductive Occurs (value : Expr) : Option Slot → Part → Prop where
  /-- The tree itself. -/
  | here : Occurs value none (.expression value)
  /-- In an operand. -/
  | unary {slot : Option Slot} {operand : Expr} (operator : String) (position : Position)
      (inside : Occurs value slot (.expression operand)) :
      Occurs value (some (slot.getD .operand)) (.expression (.unary operator operand position))
  /-- In a left operand. -/
  | left {slot : Slot} {left : Expr} (operator : String) (right : Expr) (position : Position)
      (inside : Occurs value (some slot) (.expression left)) :
      Occurs value (some slot) (.expression (.binary operator left right position))
  /-- In a right operand. -/
  | right {slot : Option Slot} {right : Expr} (operator : String) (left : Expr)
      (position : Position) (inside : Occurs value slot (.expression right)) :
      Occurs value (some (slot.getD .right)) (.expression (.binary operator left right position))
  /-- In a callee. -/
  | callee {slot : Slot} {callee : Expr} (values : List Expr) (position : Position)
      (inside : Occurs value (some slot) (.expression callee)) :
      Occurs value (some slot) (.expression (.call callee values position))
  /-- In an argument. -/
  | argument {slot : Option Slot} {argument : Expr} (callee : Expr) (front back : List Expr)
      (position : Position) (inside : Occurs value slot (.expression argument)) :
      Occurs value (some (slot.getD (.firstOf (front ++ back))))
        (.expression (.call callee (front ++ argument :: back) position))
  /-- In the body of a function literal. -/
  | function {slot : Slot} {body : List Stmt} (names : List Ident) (position : Position)
      (inside : Occurs value (some slot) (.statements body)) :
      Occurs value (some slot) (.expression (.function names body position))
  /-- In the first of some statements. -/
  | statement {slot : Slot} {statement : Stmt} (values : List Stmt)
      (first : Occurs value (some slot) (.statement statement)) :
      Occurs value (some slot) (.statements (statement :: values))
  /-- In the statements behind the first. -/
  | behindStatement {slot : Slot} {values : List Stmt} (statement : Stmt)
      (more : Occurs value (some slot) (.statements values)) :
      Occurs value (some slot) (.statements (statement :: values))
  /-- In the value of a binding. -/
  | binding {slot : Option Slot} {bound : Expr} (target : Ident) (position : Position)
      (inside : Occurs value slot (.expression bound)) :
      Occurs value (some (slot.getD .binding)) (.statement (.binding target bound position))
  /-- In the value of a function. -/
  | result {slot : Option Slot} {returned : Expr} (position : Position)
      (inside : Occurs value slot (.expression returned)) :
      Occurs value (some (slot.getD .result)) (.statement (.result (some returned) position))
  /-- In an expression on its own. -/
  | expression {slot : Option Slot} {alone : Expr} (position : Position)
      (inside : Occurs value slot (.expression alone)) :
      Occurs value (some (slot.getD .statement)) (.statement (.expression alone position))
  /-- In the test of a condition. -/
  | test {slot : Option Slot} {test : Expr} (consequence : List Stmt)
      (alternative : Option (List Stmt)) (position : Position)
      (inside : Occurs value slot (.expression test)) :
      Occurs value (some (slot.getD .test))
        (.statement (.condition test consequence alternative position))
  /-- In the first branch of a condition. -/
  | consequence {slot : Slot} {consequence : List Stmt} (test : Expr)
      (alternative : Option (List Stmt)) (position : Position)
      (inside : Occurs value (some slot) (.statements consequence)) :
      Occurs value (some slot) (.statement (.condition test consequence alternative position))
  /-- In the second branch of a condition. -/
  | alternative {slot : Slot} {alternative : List Stmt} (test : Expr) (consequence : List Stmt)
      (position : Position) (inside : Occurs value (some slot) (.statements alternative)) :
      Occurs value (some slot)
        (.statement (.condition test consequence (some alternative) position))

/-- Where an expression occurs in the tree of a construct. Not all trees are made of the tokens of
the construct: the left operand of operators is not. -/
def Phrase.Has (value : Expr) (slot : Option Slot) : Phrase → Prop
  | .expression _ found => Occurs value slot (.expression found)
  | .operand found => slot ≠ none ∧ Occurs value slot (.expression found)
  | .operators _ left found =>
    slot ≠ none ∧ Occurs value slot (.expression found) ∧ ¬ Occurs value slot (.expression left)
  | .arguments values =>
    ∃ front argument back inside, values = front ++ argument :: back ∧
      Occurs value inside (.expression argument) ∧
      slot = some (inside.getD (.firstOf (front ++ back)))
  | .moreArguments values =>
    ∃ front argument back inside, values = front ++ argument :: back ∧
      Occurs value inside (.expression argument) ∧ slot = some (inside.getD .argument)
  | .block values | .statements values => Occurs value slot (.statements values)
  | .statement found => Occurs value slot (.statement found)

/-- Constructs of one kind: those in which an expression is exchanged. -/
def Phrase.Twin : Phrase → Phrase → Prop
  | .expression above _, other => ∃ found, other = .expression above found
  | .operand _, other => ∃ found, other = .operand found
  | .operators above left _, other => ∃ found, other = .operators above left found
  | .arguments _, other => ∃ found, other = .arguments found
  | .moreArguments _, other => ∃ found, other = .moreArguments found
  | .block _, other => ∃ found, other = .block found
  | .statements _, other => ∃ found, other = .statements found
  | .statement _, other => ∃ found, other = .statement found

/-- A construct with a placeholder is of the kind of the one with the expression. -/
theorem Around.twin {hole : Hole} {before rest : List Token} {slot : Option Slot}
    {phrase lacking : Phrase} {levels : Nat}
    (around : Around hole before rest slot phrase lacking levels) : phrase.Twin lacking := by
  cases around <;> exact ⟨_, rfl⟩

/-- Some of the tokens of a construct are those of an expression, and the others are its context. -/
def Phrase.Surrounds (value : Expr) (slot : Option Slot) (levels : Nat) (tokens rest : List Token)
    (phrase : Phrase) : Prop :=
  ∃ before span after, tokens = before ++ (span ++ after) ∧
    ∀ place, ∃ lacking, Around ⟨value, span, after, place⟩ before rest slot phrase lacking levels

/-- A construct with another one in it has the contexts that the inner one has, where each of them
becomes one with the tokens in front. -/
theorem Phrase.Surrounds.within {value : Expr} {slot outer : Option Slot} {near levels : Nat}
    {tokens middle behind rest : List Token} {phrase whole : Phrase}
    (surrounds : phrase.Surrounds value slot near middle behind) (front : List Token)
    (same : tokens = front ++ middle)
    (wrap : ∀ {hole : Hole} {before : List Token} {lacking : Phrase},
      middle = before ++ hole.tokens → phrase.Twin lacking →
      Around hole before behind slot phrase lacking near →
        ∃ further, Around hole (front ++ before) rest outer whole further levels) :
    whole.Surrounds value outer levels tokens rest := by
  obtain ⟨before, span, after, rfl, context⟩ := surrounds
  refine ⟨front ++ before, span, after, same.trans (List.append_assoc ..).symm, fun place => ?_⟩
  obtain ⟨lacking, around⟩ := context place
  exact wrap rfl around.twin around

/-- An expression that lies inside another one, and is not all of it, has tokens in front. -/
theorem Phrase.Surrounds.behind_first {value found : Expr} {slot : Slot} {above : Precedence}
    {levels : Nat} {first : Token} {tokens rest : List Token}
    (surrounds : (Phrase.expression above found).Surrounds value (some slot) levels
      (first :: tokens) rest) :
    ∃ before span after, tokens = before ++ (span ++ after) ∧
      ∀ place, ∃ other, Around ⟨value, span, after, place⟩ (first :: before) rest (some slot)
        (.expression above found) (.expression above other) levels := by
  obtain ⟨before, span, after, same, context⟩ := surrounds
  cases before with
  | nil =>
    obtain ⟨lacking, around⟩ := context first.position
    exact absurd (around.bare rfl).1 (Option.some_ne_none slot)
  | cons head before =>
    obtain ⟨rfl, rfl⟩ := List.cons.inj same
    refine ⟨before, span, after, rfl, fun place => ?_⟩
    obtain ⟨lacking, around⟩ := context place
    obtain ⟨other, rfl⟩ := around.twin
    exact ⟨other, around⟩

/-- The tokens of an expression behind its first one. -/
theorem Reads.behind_first {value : Expr} {above : Precedence} {levels : Nat} {first : Token}
    {tokens rest : List Token}
    (reads : Reads (.expression above value) levels (first :: tokens) rest) :
    ∃ span, tokens = span ++ rest := by
  obtain ⟨used, same, ends, -⟩ := reads.extent
  obtain ⟨head, span, rfl⟩ := List.exists_cons_of_ne_nil ends.1
  exact ⟨span, (List.cons.inj same).2⟩

/-- Each expression that occurs in a tree has a context among the tokens that the tree is read
from. -/
theorem Reads.surrounded {value : Expr} {phrase : Phrase} {levels : Nat} {tokens rest : List Token}
    (reads : Reads phrase levels tokens rest) {slot : Option Slot} (has : phrase.Has value slot) :
    phrase.Surrounds value slot levels tokens rest := by
  induction reads generalizing slot with
  | @expression above near far tokens middle rest left found first more first_ih more_ih =>
    cases slot with
    | none =>
      have whole := Reads.expression first more
      obtain ⟨used, same, -⟩ := whole.extent
      cases has
      refine ⟨[], used, rest, same, fun place => ⟨_, .here ?_⟩⟩
      rw [Hole.tokens, ← same]
      exact whole
    | some slot =>
      by_cases inside : Occurs value (some slot) (.expression left)
      · refine (first_ih ⟨Option.some_ne_none _, inside⟩).within [] rfl ?_
        rintro hole before _ - ⟨other, rfl⟩ around
        obtain ⟨further, trails⟩ := more.trails other
        exact ⟨_, .first around trails⟩
      · obtain ⟨front, rfl, -⟩ := first.extent
        refine (more_ih ⟨Option.some_ne_none _, has, inside⟩).within front rfl ?_
        rintro hole before _ rfl ⟨other, rfl⟩ around
        exact ⟨_, .operators first around⟩
  | name | integer | boolean =>
    obtain ⟨inner, occurs⟩ := has
    cases occurs
    exact absurd rfl inner
  | @unary sign _ _ _ _ kind _ ih =>
    obtain ⟨inner, occurs⟩ := has
    cases occurs with
    | here => exact absurd rfl inner
    | unary _ _ inside =>
      refine (ih inside).within [sign] rfl ?_
      rintro hole before _ - ⟨other, rfl⟩ around
      exact ⟨_, .unary kind around⟩
  | @grouped opening close _ _ _ _ kind _ closing ih =>
    obtain ⟨inner, occurs⟩ := has
    obtain ⟨slot, rfl⟩ := Option.ne_none_iff_exists'.mp inner
    refine (ih occurs).within [opening] rfl ?_
    rintro hole before _ - ⟨other, rfl⟩ around
    exact ⟨_, .grouped kind around closing⟩
  | @function keyword opening brace _ _ _ _ _ _ kind paren parameters curly _ ih =>
    obtain ⟨inner, occurs⟩ := has
    cases occurs with
    | here => exact absurd rfl inner
    | function _ _ inside =>
      obtain ⟨front, rfl, -⟩ := parameters.extent
      refine (ih inside).within (keyword :: opening :: (front ++ [brace])) (by simp) ?_
      rintro hole before _ rfl ⟨other, rfl⟩ around
      have context := Around.function kind paren parameters curly around
      exact ⟨_, by simpa only [List.cons_append, List.append_assoc, List.nil_append] using context⟩
  | noOperator looser => exact absurd has.2.1 has.2.2
  | @binary above sign near far tokens middle rest left right found tighter kind operand more
      operand_ih more_ih =>
    obtain ⟨inner, occurs, apart⟩ := has
    by_cases inside : Occurs value slot
        (.expression (.binary sign.text left right sign.position))
    · cases inside with
      | here => exact absurd rfl inner
      | left _ _ _ inside => exact absurd inside apart
      | right _ _ _ inside =>
        refine (operand_ih inside).within [sign] rfl ?_
        rintro hole before _ - ⟨other, rfl⟩ around
        obtain ⟨further, trails⟩ := more.trails (.binary sign.text left other sign.position)
        exact ⟨_, .right tighter kind around trails⟩
    · obtain ⟨front, rfl, -⟩ := operand.extent
      refine (more_ih ⟨inner, occurs, inside⟩).within (sign :: front) rfl ?_
      rintro hole before _ rfl ⟨other, rfl⟩ around
      exact ⟨_, .behindBinary tighter kind operand around⟩
  | @call above opening near far tokens middle rest left found values tighter kind arguments more
      arguments_ih more_ih =>
    obtain ⟨inner, occurs, apart⟩ := has
    by_cases inside : Occurs value slot (.expression (.call left values opening.position))
    · cases inside with
      | here => exact absurd rfl inner
      | callee _ _ inside => exact absurd inside apart
      | argument _ front back _ inside =>
        refine (arguments_ih ⟨front, _, back, _, rfl, inside, rfl⟩).within [opening] rfl ?_
        rintro hole before _ - ⟨others, rfl⟩ around
        obtain ⟨further, trails⟩ := more.trails (.call left others opening.position)
        exact ⟨_, .called tighter kind around trails⟩
    · obtain ⟨front, rfl, -⟩ := arguments.extent
      refine (more_ih ⟨inner, occurs, inside⟩).within (opening :: front) rfl ?_
      rintro hole before _ rfl ⟨other, rfl⟩ around
      exact ⟨_, .behindCall tighter kind arguments around⟩
  | noArgument | lastArgument =>
    obtain ⟨front, argument, back, inside, same, -⟩ := has
    simp at same
  | arguments first more first_ih more_ih =>
    obtain ⟨front, argument, back, inside, same, occurs, rfl⟩ := has
    cases front with
    | nil =>
      obtain ⟨rfl, rfl⟩ := List.cons.inj same
      refine (first_ih occurs).within [] rfl ?_
      rintro hole before _ - ⟨other, rfl⟩ around
      exact ⟨_, .argument around more⟩
    | cons _ front =>
      obtain ⟨rfl, rfl⟩ := List.cons.inj same
      obtain ⟨used, rfl, -⟩ := first.extent
      refine (more_ih ⟨front, argument, back, inside, rfl, occurs, rfl⟩).within used rfl ?_
      rintro hole before _ rfl ⟨others, rfl⟩ around
      exact ⟨_, .behindArgument first around⟩
  | @nextArgument comma _ _ _ _ _ _ _ separator first more first_ih more_ih =>
    obtain ⟨front, argument, back, inside, same, occurs, rfl⟩ := has
    cases front with
    | nil =>
      obtain ⟨rfl, rfl⟩ := List.cons.inj same
      refine (first_ih occurs).within [comma] rfl ?_
      rintro hole before _ - ⟨other, rfl⟩ around
      exact ⟨_, .nextArgument separator around more⟩
    | cons _ front =>
      obtain ⟨rfl, rfl⟩ := List.cons.inj same
      obtain ⟨used, rfl, -⟩ := first.extent
      refine
        (more_ih ⟨front, argument, back, inside, rfl, occurs, rfl⟩).within (comma :: used) rfl ?_
      rintro hole before _ rfl ⟨others, rfl⟩ around
      exact ⟨_, .behindNextArgument separator first around⟩
  | block _ ih =>
    refine (ih has).within [] rfl ?_
    rintro hole before _ - ⟨others, rfl⟩ around
    exact ⟨_, .block around⟩
  | lastStatement => cases has
  | nextStatement first more first_ih more_ih =>
    cases has with
    | statement _ inside =>
      refine (first_ih inside).within [] rfl ?_
      rintro hole before _ - ⟨other, rfl⟩ around
      exact ⟨_, .nextStatement around more⟩
    | behindStatement _ inside =>
      obtain ⟨used, rfl, -⟩ := first.extent
      refine (more_ih inside).within used rfl ?_
      rintro hole before _ rfl ⟨others, rfl⟩ around
      exact ⟨_, .behindStatement first around⟩
  | @binding keyword target sign _ _ _ _ _ kind named assigned _ closing ih =>
    cases has with
    | binding _ _ inside =>
      refine (ih inside).within [keyword, target, sign] rfl ?_
      rintro hole before _ - ⟨other, rfl⟩ around
      exact ⟨_, .binding kind named assigned around closing⟩
  | bareResult => cases has
  | @result keyword _ _ _ _ _ kind _ closing ih =>
    cases has with
    | result _ inside =>
      refine (ih inside).within [keyword] rfl ?_
      rintro hole before _ - ⟨other, rfl⟩ around
      exact ⟨_, .result kind around closing⟩
  | @terminated first close _ _ _ _ inside closing ih =>
    cases has with
    | @expression slot _ _ occurs =>
      cases slot with
      | none =>
        cases occurs
        obtain ⟨span, rfl⟩ := inside.behind_first
        exact ⟨[], first :: span, _, rfl, fun _ => ⟨_, .wholeTerminated rfl rfl inside closing⟩⟩
      | some slot =>
        obtain ⟨before, span, after, rfl, context⟩ := (ih occurs).behind_first
        refine ⟨first :: before, span, after, rfl, fun place => ?_⟩
        obtain ⟨other, around⟩ := context place
        exact ⟨_, .terminated around closing⟩
  | @unterminated first _ _ _ _ inside following ih =>
    cases has with
    | @expression slot _ _ occurs =>
      cases slot with
      | none =>
        cases occurs
        obtain ⟨span, rfl⟩ := inside.behind_first
        exact ⟨[], first :: span, _, rfl, fun _ => ⟨_, .wholeUnterminated rfl inside following⟩⟩
      | some slot =>
        obtain ⟨before, span, after, rfl, context⟩ := (ih occurs).behind_first
        refine ⟨first :: before, span, after, rfl, fun place => ?_⟩
        obtain ⟨other, around⟩ := context place
        exact ⟨_, .unterminated around following⟩
  | @condition keyword opening close brace _ _ _ _ _ _ _ kind paren tested closing curly block
      following tested_ih block_ih =>
    cases has with
    | test _ _ _ inside =>
      refine (tested_ih inside).within [keyword, opening] rfl ?_
      rintro hole before _ - ⟨other, rfl⟩ around
      exact ⟨_, .test kind paren around closing curly block following⟩
    | consequence _ _ _ inside =>
      obtain ⟨used, rfl, -⟩ := tested.extent
      refine (block_ih inside).within (keyword :: opening :: (used ++ [close, brace])) (by simp) ?_
      rintro hole before _ rfl ⟨other, rfl⟩ around
      have context := Around.consequence kind paren tested closing curly around following
      exact ⟨_, by simpa only [List.cons_append, List.append_assoc, List.nil_append] using context⟩
  | @alternative keyword opening close brace second_word curl _ _ _ _ _ _ _ _ _ _ kind paren tested
      closing curly block otherwise curled second tested_ih block_ih second_ih =>
    cases has with
    | test _ _ _ inside =>
      refine (tested_ih inside).within [keyword, opening] rfl ?_
      rintro hole before _ - ⟨other, rfl⟩ around
      exact ⟨_, .testOfTwo kind paren around closing curly block otherwise curled second⟩
    | consequence _ _ _ inside =>
      obtain ⟨used, rfl, -⟩ := tested.extent
      refine (block_ih inside).within (keyword :: opening :: (used ++ [close, brace])) (by simp) ?_
      rintro hole before _ rfl ⟨other, rfl⟩ around
      have context :=
        Around.firstOfTwo kind paren tested closing curly around otherwise curled second
      exact ⟨_, by simpa only [List.cons_append, List.append_assoc, List.nil_append] using context⟩
    | alternative _ _ _ inside =>
      obtain ⟨body, rfl, -⟩ := block.extent
      obtain ⟨used, rfl, -⟩ := tested.extent
      refine (second_ih inside).within (keyword :: opening :: (used ++ close :: brace ::
        (body ++ [second_word, curl]))) (by simp) ?_
      rintro hole before _ rfl ⟨other, rfl⟩ around
      have context :=
        Around.secondOfTwo kind paren tested closing curly block otherwise curled around
      exact ⟨_, by simpa only [List.cons_append, List.append_assoc, List.nil_append] using context⟩

/-- Each expression that occurs in a program has a context among the tokens that the program is read
from. -/
theorem ReadsProgram.surrounded {value : Expr} {slot : Slot} {levels : Nat} {tokens : List Token}
    {values : List Stmt} (reads : ReadsProgram levels tokens values)
    (occurs : Occurs value (some slot) (.statements values)) :
    ∃ before span after, tokens = before ++ (span ++ after) ∧ ∀ place, ∃ lacking,
      AroundProgram ⟨value, span, after, place⟩ slot before values lacking levels := by
  induction reads with
  | done => cases occurs
  | next first more ih =>
    cases occurs with
    | statement _ inside =>
      obtain ⟨before, span, after, rfl, context⟩ := first.surrounded inside
      refine ⟨before, span, after, rfl, fun place => ?_⟩
      obtain ⟨lacking, around⟩ := context place
      obtain ⟨found, rfl⟩ := around.twin
      exact ⟨_, .next around more⟩
    | behindStatement _ inside =>
      obtain ⟨front, rfl, -⟩ := first.extent
      obtain ⟨before, span, after, rfl, context⟩ := ih inside
      refine ⟨front ++ before, span, after, (List.append_assoc ..).symm, fun place => ?_⟩
      obtain ⟨lacking, around⟩ := context place
      exact ⟨_, .behind first around⟩

/-- In a source that is parsed without a diagnostic, each expression that occurs in the program has
a context among the tokens. -/
theorem parse_surrounded {source : String} {parsed : Parsed} (ran : parse source = .ok parsed)
    (clean : parsed.diagnostics = []) {value : Expr} {slot : Slot}
    (occurs : Occurs value (some slot) (.statements parsed.program.statements))
    (place : Position) :
    ∃ before span after lacking levels, sourceTokens source = before ++ (span ++ after) ∧
      AroundProgram ⟨value, span, after, place⟩ slot before parsed.program.statements lacking
        levels := by
  obtain ⟨levels, -, reads⟩ := parse_clean (nonempty_of_parse ran) ran clean
  obtain ⟨before, span, after, tokens, context⟩ := reads.surrounded occurs
  obtain ⟨lacking, around⟩ := context place
  exact ⟨before, span, after, lacking, levels, tokens, around⟩

end ExprLang.Parser
