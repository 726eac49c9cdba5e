import ExprLang.Proofs.Grammar.Basic
import ExprLang.Proofs.Reading.Basic

/-!
# Readings are derivations

Whatever the parser reads as a construct, the grammar derives from the symbol of the construct
(`Reads.derives`): each rule of inference for readings follows a rule of the grammar, with the
precedence of operators forgotten.
-/

namespace ExprLang.Parser

open Grammar (Form Derives)

/-- The form of a construct in the grammar, from where its tokens are counted. -/
def Phrase.form : Phrase → Form
  | .expression .. => .rule .expression
  | .operand _ => .rule .operand
  | .operators .. => .many (.rule .operation)
  | .arguments _ => .all [.optional (.separated (.rule .expression)), .token .rightParen]
  | .moreArguments _ =>
    .all [.many (.all [.token .comma, .rule .expression]), .token .rightParen]
  | .block _ => .all [.many (.rule .statement), .token .rightBrace]
  | .statements _ => .all [.many (.rule .statement), .token .rightBrace]
  | .statement _ => .rule .statement

/-- A list of tokens begins with tokens that a form derives. -/
def Begins (form : Form) (tokens rest : List Token) : Prop :=
  ∃ taken, tokens = taken ++ rest ∧ Derives form taken

/-- The names behind the first parameter are derived. -/
theorem ReadsMoreNames.derives {tokens rest : List Token} {names : List Ident}
    (reads : ReadsMoreNames tokens rest names) :
    Begins (.all [.many (.all [.token .comma, .token .identifier]), .token .rightParen]) tokens
      rest := by
  induction reads with
  | @last close rest closing => exact ⟨[close], rfl, .stopped (.word closing .nothing)⟩
  | @next comma name tokens rest names separator named _ ih =>
    obtain ⟨taken, rfl, derives⟩ := ih
    have head : Derives (.all [.token .comma, .token .identifier]) [comma, name] :=
      .word separator (.word named .nothing)
    exact ⟨comma :: name :: taken, rfl, head.again derives⟩

/-- A form in front of a token. -/
theorem derives_split {form : Form} {kind : Kind} {tokens : List Token}
    (derives : Derives (.all [form, .token kind]) tokens) :
    ∃ first close, tokens = first ++ [close] ∧ close.kind = kind ∧ Derives form first := by
  cases derives with
  | sequence head tail =>
    cases tail with
    | sequence last ended =>
      cases last with
      | token same =>
        cases ended
        exact ⟨_, _, rfl, same, head⟩

/-- A form and more of it, with commas between, in front of a token. -/
theorem separated_derives {form : Form} {kind : Kind} {first rest : List Token}
    (head : Derives form first)
    (tail : Derives (.all [.many (.all [.token .comma, form]), .token kind]) rest) :
    Derives (.all [.optional (.separated form), .token kind]) (first ++ rest) := by
  obtain ⟨repeated, close, rfl, closing, derives⟩ := derives_split tail
  have list : Derives (.separated form) (first ++ repeated) := .part head (.last derives)
  rw [← List.append_assoc]
  exact .part (.present list) (.word closing .nothing)

/-- Parameters are derived. -/
theorem ReadsNames.derives {tokens rest : List Token} {names : List Ident}
    (reads : ReadsNames tokens rest names) :
    Begins (.all [.optional (.separated (.token .identifier)), .token .rightParen]) tokens
      rest := by
  cases reads with
  | none closing => exact ⟨[_], rfl, .omitted (.word closing .nothing)⟩
  | @some name tokens _ names named more =>
    obtain ⟨taken, rfl, derives⟩ := more.derives
    exact ⟨name :: taken, rfl, separated_derives (.token named) derives⟩

/-- An operator that binds is one of the operators between operands. -/
theorem binary_kind {above : Precedence} {kind : Kind} (tighter : above < .ofKind kind)
    (other : kind ≠ .leftParen) :
    Form.token kind ∈ [Form.token .equal, .token .notEqual, .token .less, .token .greater,
      .token .plus, .token .minus, .token .asterisk, .token .slash] := by
  have lowest : ∀ above : Precedence, ¬ above < .lowest := by
    intro above
    cases above <;> decide
  cases kind <;> first | decide | exact absurd rfl other | exact absurd tighter (lowest above)

/-- What the parser reads as a construct is derived from the form of the construct. -/
theorem Reads.derives {phrase : Phrase} {levels : Nat} {tokens rest : List Token}
    (reads : Reads phrase levels tokens rest) : Begins phrase.form tokens rest := by
  induction reads with
  | expression _ _ first more =>
    obtain ⟨behind, rfl, operators⟩ := more
    obtain ⟨taken, rfl, operand⟩ := first
    exact ⟨taken ++ behind, by simp, .rule (.part operand (.last operators))⟩
  | @name token rest kind => exact ⟨[token], rfl, .rule (.of_mem (by decide) (.token kind))⟩
  | @integer token rest _ kind => exact ⟨[token], rfl, .rule (.of_mem (by decide) (.token kind))⟩
  | @boolean token rest kind =>
    rcases kind with kind | kind
    · exact ⟨[token], rfl, .rule (.of_mem (by decide) (.token kind))⟩
    · exact ⟨[token], rfl, .rule (.of_mem (by decide) (.token kind))⟩
  | @unary sign levels tokens rest value kind _ operand =>
    obtain ⟨taken, rfl, derives⟩ := operand
    have operator : Derives (.any [.token .bang, .token .minus]) [sign] := by
      rcases kind with kind | kind
      · exact .of_mem (by decide) (.token kind)
      · exact .of_mem (by decide) (.token kind)
    have whole : Derives (.all [.any [.token .bang, .token .minus], .rule .expression])
        ([sign] ++ taken) := operator.part (.last derives)
    exact ⟨sign :: taken, rfl, .rule (.of_mem (by decide) whole)⟩
  | @grouped opening close levels tokens rest value kind _ closing inside =>
    obtain ⟨taken, rfl, derives⟩ := inside
    have whole : Derives (.all [.token .leftParen, .rule .expression, .token .rightParen])
        (opening :: (taken ++ [close])) := .word kind (.part derives (.word closing .nothing))
    exact ⟨_, by simp, .rule (.of_mem (by decide) whole)⟩
  | @function keyword opening brace levels tokens inside rest _ _ kind paren parameters curly _
      block =>
    obtain ⟨body, rfl, block⟩ := block
    obtain ⟨taken, rfl, named⟩ := parameters.derives
    have braced : Derives (.rule .block) (brace :: body) := .rule (.word curly block)
    obtain ⟨names, close, rfl, closing, listed⟩ := derives_split named
    have whole := Derives.word kind (.word paren (.part listed (.word closing (.last braced))))
    exact ⟨_, by simp, .rule (.of_mem (by decide) whole)⟩
  | @noOperator _ _ rest => exact ⟨[], rfl, .stop⟩
  | @binary above sign near far tokens middle rest left right value tighter kind _ _ operand more =>
    obtain ⟨behind, rfl, operators⟩ := more
    obtain ⟨taken, rfl, operand⟩ := operand
    have operator := Derives.of_mem (binary_kind tighter kind)
      (.token (rfl : sign.kind = sign.kind))
    have last : Derives (.all [.rule .expression]) taken := .last operand
    have extended : Derives (.rule .operation) ([sign] ++ taken) :=
      .rule (.of_mem (by decide) (operator.part last))
    exact ⟨[sign] ++ taken ++ behind, by simp, .more extended operators⟩
  | @call above opening near far tokens middle rest left value values tighter kind _ _ arguments
      more =>
    obtain ⟨behind, rfl, operators⟩ := more
    obtain ⟨taken, rfl, arguments⟩ := arguments
    have extended : Derives (.rule .operation) (opening :: taken) :=
      .rule (.of_mem (by decide) (.word kind arguments))
    exact ⟨opening :: taken ++ behind, by simp, .more extended operators⟩
  | noArgument closing => exact ⟨[_], rfl, .omitted (.word closing .nothing)⟩
  | arguments _ _ first more =>
    obtain ⟨behind, rfl, more⟩ := more
    obtain ⟨taken, rfl, first⟩ := first
    exact ⟨taken ++ behind, by simp, separated_derives first more⟩
  | lastArgument closing => exact ⟨[_], rfl, .stopped (.word closing .nothing)⟩
  | @nextArgument comma near far tokens middle rest value values separator _ _ first more =>
    obtain ⟨behind, rfl, more⟩ := more
    obtain ⟨taken, rfl, first⟩ := first
    have head : Derives (.all [.token .comma, .rule .expression]) (comma :: taken) :=
      .word separator (.last first)
    exact ⟨comma :: taken ++ behind, by simp, head.again more⟩
  | block _ inside => exact inside
  | lastStatement closing => exact ⟨[_], rfl, .stopped (.word closing .nothing)⟩
  | nextStatement _ _ first more =>
    obtain ⟨behind, rfl, more⟩ := more
    obtain ⟨taken, rfl, first⟩ := first
    exact ⟨taken ++ behind, by simp, first.again more⟩
  | @binding keyword target sign close levels tokens rest value kind named assigned _ closing
      inside =>
    obtain ⟨taken, rfl, derives⟩ := inside
    have whole : Derives (.rule .binding) (keyword :: target :: sign :: (taken ++ [close])) :=
      .rule (.word kind (.word named (.word assigned (.part derives (.word closing .nothing)))))
    exact ⟨_, by simp, .rule (.of_mem (by decide) whole)⟩
  | @bareResult keyword close rest kind closing =>
    have whole : Derives (.rule .result) [keyword, close] :=
      .rule (.word kind (.omitted (.word closing .nothing)))
    exact ⟨_, rfl, .rule (.of_mem (by decide) whole)⟩
  | @result keyword close levels tokens rest value kind _ closing inside =>
    obtain ⟨taken, rfl, derives⟩ := inside
    have whole : Derives (.rule .result) (keyword :: (taken ++ [close])) :=
      .rule (.word kind (.part (.present derives) (.word closing .nothing)))
    exact ⟨_, by simp, .rule (.of_mem (by decide) whole)⟩
  | @terminated first close levels tokens rest value _ closing inside =>
    obtain ⟨taken, same, derives⟩ := inside
    have whole : Derives (.all [.rule .expression, .optional (.token .semicolon)])
        (taken ++ [close]) := .part derives (.last (.present (.token closing)))
    exact ⟨taken ++ [close], by simp [same], .rule (.of_mem (by decide) whole)⟩
  | unterminated _ _ inside =>
    obtain ⟨taken, same, derives⟩ := inside
    have whole : Derives (.all [.rule .expression, .optional (.token .semicolon)]) (taken ++ []) :=
      .part derives (.last .absent)
    rw [List.append_nil] at whole
    exact ⟨taken, same, .rule (.of_mem (by decide) whole)⟩
  | @condition keyword opening close brace near far tokens inside rest _ _ kind paren _ closing
      curly _ _ tested block =>
    obtain ⟨body, rfl, block⟩ := block
    obtain ⟨taken, rfl, tested⟩ := tested
    have braced : Derives (.rule .block) (brace :: body) := .rule (.word curly block)
    have whole : Derives (.rule .condition)
        (keyword :: opening :: (taken ++ (close :: (brace :: body ++ [])))) :=
      .rule (.word kind (.word paren (.part tested (.word closing (.part braced (.last .absent))))))
    exact ⟨_, by simp, .rule (.of_mem (by decide) whole)⟩
  | @alternative keyword opening close brace other curl near far further tokens inside behind rest
      _ _ _ kind paren _ closing curly _ otherwise curled _ tested block second =>
    obtain ⟨last, rfl, second⟩ := second
    obtain ⟨body, rfl, block⟩ := block
    obtain ⟨taken, rfl, tested⟩ := tested
    have braced : Derives (.rule .block) (brace :: body) := .rule (.word curly block)
    have braced_other : Derives (.rule .block) (curl :: last) := .rule (.word curled second)
    have ended := Derives.word otherwise (.last braced_other)
    have whole : Derives (.rule .condition)
        (keyword :: opening :: (taken ++ (close :: (brace :: body ++ other :: curl :: last)))) :=
      .rule (.word kind (.word paren (.part tested (.word closing (.part braced
        (.last (.present ended)))))))
    exact ⟨_, by simp, .rule (.of_mem (by decide) whole)⟩

/-- What the parser reads as a program is derived as one. -/
theorem ReadsProgram.derives {levels : Nat} {tokens : List Token} {values : List Stmt}
    (reads : ReadsProgram levels tokens values) : Derives (.rule .program) tokens := by
  refine .rule ?_
  induction reads with
  | done => exact .stop
  | next first _ ih =>
    obtain ⟨taken, rfl, derives⟩ := first.derives
    exact .more derives ih

end ExprLang.Parser
