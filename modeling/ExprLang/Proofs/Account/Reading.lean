import ExprLang.Proofs.Account.Basic
import ExprLang.Proofs.Reading.Basic

/-!
# Readings and the marks of their trees

A reading passes no token of a name, a value, a keyword or an operator without its mark
(`Reads.places`), so that nothing of a source without faults is lost. The tokens without a mark are
those that only hold a construct together. A parenthesis is among them: behind an expression it is
under the mark of a call, in front of one under none.
-/

namespace ExprLang.Parser

/-- From some tokens up to others behind them, the tokens of a marked kind are where marks are. -/
def Placed (marks : List Mark) (tokens rest : List Token) : Prop :=
  ∀ token ∈ tokens, token.kind.isMarked = true →
    token ∈ rest ∨ token.position ∈ marks.map (·.position)

namespace Placed

variable {marks more : List Mark} {tokens middle rest : List Token}

/-- Nothing is passed. -/
theorem refl (tokens : List Token) : Placed [] tokens tokens :=
  fun _ found _ => .inl found

/-- The marks of two parts, one behind the other. -/
theorem trans (left : Placed marks tokens middle) (right : Placed more middle rest) :
    Placed (marks ++ more) tokens rest := by
  intro token found marked
  rw [List.map_append, List.mem_append]
  rcases left token found marked with behind | here
  · rcases right token behind marked with behind | here
    · exact .inl behind
    · exact .inr (.inr here)
  · exact .inr (.inl here)

/-- A token with its mark. -/
theorem mark (role : Role) (token : Token) (rest : List Token) :
    Placed [⟨role, token.position⟩] (token :: rest) rest := by
  intro other found _
  rcases List.mem_cons.mp found with rfl | behind
  · exact .inr List.mem_cons_self
  · exact .inl behind

/-- A token without a mark, which is not of a marked kind. -/
theorem plain {token : Token} {kind : Kind} (same : token.kind = kind)
    (unmarked : kind.isMarked = false) (rest : List Token) : Placed [] (token :: rest) rest := by
  intro other found marked
  rcases List.mem_cons.mp found with rfl | behind
  · rw [same, unmarked] at marked
    exact absurd marked Bool.false_ne_true
  · exact .inl behind

/-- What is passed in front of a part leaves no marks. -/
theorem behind (left : Placed [] tokens middle) (right : Placed marks middle rest) :
    Placed marks tokens rest := left.trans right

/-- What is passed behind a part leaves no marks. -/
theorem closed (left : Placed marks tokens middle) (right : Placed [] middle rest) :
    Placed marks tokens rest := by
  have whole := left.trans right
  rwa [List.append_nil] at whole

end Placed

/-- The tokens of a construct that are of a marked kind are where its marks are. -/
def Phrase.Places (tokens rest : List Token) : Phrase → Prop
  | .expression _ value | .operand value => Placed value.marks tokens rest
  | .operators _ left value =>
    ∃ new, value.marks = left.marks ++ new ∧ Placed new tokens rest
  | .arguments values | .moreArguments values => Placed (Expr.marksAll values) tokens rest
  | .block body | .statements body => Placed (Stmt.marksAll body) tokens rest
  | .statement value => Placed value.marks tokens rest

/-- No further name is passed without its mark. -/
theorem ReadsMoreNames.places {tokens rest : List Token} {names : List Ident}
    (reads : ReadsMoreNames tokens rest names) : Placed (names.map Ident.mark) tokens rest := by
  induction reads with
  | last closing => exact .plain closing rfl _
  | @next comma name _ _ _ separator _ _ ih =>
    exact (Placed.plain separator rfl _).behind ((Placed.mark (.name name.text) name _).trans ih)

/-- No parameter is passed without its mark. -/
theorem ReadsNames.places {tokens rest : List Token} {names : List Ident}
    (reads : ReadsNames tokens rest names) : Placed (names.map Ident.mark) tokens rest := by
  cases reads with
  | none closing => exact .plain closing rfl _
  | @some name _ _ _ _ more => exact (Placed.mark (.name name.text) name _).trans more.places

/-- A reading passes no token of a marked kind without its mark. -/
theorem Reads.places {phrase : Phrase} {levels : Nat} {tokens rest : List Token}
    (reads : Reads phrase levels tokens rest) : phrase.Places tokens rest := by
  induction reads with
  | expression _ _ first more =>
    obtain ⟨new, same, placed⟩ := more
    have whole := Placed.trans first placed
    rwa [← same] at whole
  | name => exact .mark _ _ _
  | integer => exact .mark _ _ _
  | boolean => exact .mark _ _ _
  | unary _ _ operand => exact (Placed.mark _ _ _).trans operand
  | grouped kind _ closing inside =>
    exact (Placed.plain kind rfl _).behind (inside.closed (.plain closing rfl _))
  | function _ paren parameters curly _ block =>
    have names := (Placed.plain paren rfl _).behind parameters.places
    exact (Placed.mark _ _ _).trans (names.trans ((Placed.plain curly rfl _).behind block))
  | noOperator => exact ⟨[], (List.append_nil _).symm, .refl _⟩
  | @binary _ sign _ _ tokens _ _ _ _ _ _ _ _ _ operand more =>
    obtain ⟨new, same, placed⟩ := more
    have operator := Placed.mark (.binary sign.text) sign tokens
    refine ⟨_, ?_, operator.trans (Placed.trans operand placed)⟩
    rw [same, Expr.marks, List.append_assoc]
    rfl
  | @call _ opening _ _ tokens _ _ _ _ _ _ _ _ _ arguments more =>
    obtain ⟨new, same, placed⟩ := more
    have paren := Placed.mark .call opening tokens
    refine ⟨_, ?_, paren.trans (Placed.trans arguments placed)⟩
    rw [same, Expr.marks, List.append_assoc]
    rfl
  | noArgument closing => exact .plain closing rfl _
  | arguments _ _ first more => exact Placed.trans first more
  | lastArgument closing => exact .plain closing rfl _
  | nextArgument separator _ _ first more =>
    exact (Placed.plain separator rfl _).behind (Placed.trans first more)
  | block _ inside => exact inside
  | lastStatement closing => exact .plain closing rfl _
  | nextStatement _ _ first more => exact Placed.trans first more
  | @binding _ target _ _ _ _ _ _ _ _ assigned _ closing inside =>
    have value := (Placed.plain assigned rfl _).behind (inside.closed (.plain closing rfl _))
    exact (Placed.mark _ _ _).trans ((Placed.mark (.name target.text) target _).trans value)
  | bareResult _ closing => exact (Placed.mark _ _ _).closed (.plain closing rfl _)
  | result _ _ closing inside =>
    exact (Placed.mark _ _ _).trans (inside.closed (.plain closing rfl _))
  | terminated _ closing inside => exact inside.closed (.plain closing rfl _)
  | unterminated _ _ inside => exact inside
  | condition _ paren _ closing curly _ _ tested block =>
    have test := (Placed.plain paren rfl _).behind (tested.closed (.plain closing rfl _))
    have consequence := (Placed.plain curly rfl _).behind block
    exact (Placed.mark _ _ _).trans (test.trans consequence)
  | alternative _ paren _ closing curly _ otherwise curled _ tested first second =>
    have test := (Placed.plain paren rfl _).behind (tested.closed (.plain closing rfl _))
    have consequence := (Placed.plain curly rfl _).behind first
    have braced := (Placed.plain curled rfl _).behind second
    have alternative := (Placed.plain otherwise rfl _).behind braced
    exact (Placed.mark _ _ _).trans (test.trans (consequence.trans alternative))

/-- Every token of a marked kind of a program that is read is where a mark is. -/
theorem ReadsProgram.places {levels : Nat} {tokens : List Token} {values : List Stmt}
    (reads : ReadsProgram levels tokens values) : Placed (Stmt.marksAll values) tokens [] := by
  induction reads with
  | done => exact .refl []
  | next first _ ih => exact Placed.trans first.places ih

end ExprLang.Parser
