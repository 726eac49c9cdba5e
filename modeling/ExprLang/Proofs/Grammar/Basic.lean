import ExprLang.Token

/-!
# The grammar of the language

The grammar is data: a form for each symbol, in the notation of its documentation. What a form
derives is told by rules of inference over token lists, without any regard to precedence or to
how a parser would choose. The least meaning of the symbols is what they derive
(`Derives.meaning`), which is how a derivation is taken apart.
-/

namespace ExprLang.Grammar

/-- The symbols of the grammar. -/
inductive Symbol where
  /-- A whole source. -/
  | program
  /-- A statement. -/
  | statement
  /-- A binding of a name. -/
  | binding
  /-- The end of a function. -/
  | result
  /-- A condition. -/
  | condition
  /-- Statements between braces. -/
  | block
  /-- An expression. -/
  | expression
  /-- What an expression begins with. -/
  | operand
  /-- What extends an expression to the right. -/
  | operation
deriving DecidableEq

/-- The right sides of rules. -/
inductive Form where
  /-- A token of a kind. -/
  | token (kind : Kind)
  /-- Whatever a symbol derives. -/
  | rule (name : Symbol)
  /-- No token. -/
  | empty
  /-- Nothing that could be derived. -/
  | nothing
  /-- One form behind another. -/
  | sequence (left right : Form)
  /-- One of two forms. -/
  | choice (left right : Form)
  /-- A form that may be left out. -/
  | optional (form : Form)
  /-- A form any number of times. -/
  | many (form : Form)
deriving DecidableEq

namespace Form

/-- Forms one behind the other. -/
def all : List Form → Form
  | [] => .empty
  | form :: rest => .sequence form (all rest)

/-- One of a list of forms. -/
def any : List Form → Form
  | [] => .nothing
  | form :: rest => .choice form (any rest)

/-- A form once or more, with commas between. -/
def separated (form : Form) : Form := all [form, .many (all [.token .comma, form])]

end Form

/-- The rules of the grammar. -/
def Symbol.definition : Symbol → Form
  | program => .many (.rule statement)
  | statement => .any [.rule binding, .rule result, .rule condition,
    .all [.rule expression, .optional (.token .semicolon)]]
  | binding => .all [.token .letWord, .token .identifier, .token .assign, .rule expression,
    .token .semicolon]
  | result => .all [.token .returnWord, .optional (.rule expression), .token .semicolon]
  | condition => .all [.token .ifWord, .token .leftParen, .rule expression, .token .rightParen,
    .rule block, .optional (.all [.token .elseWord, .rule block])]
  | block => .all [.token .leftBrace, .many (.rule statement), .token .rightBrace]
  | expression => .all [.rule operand, .many (.rule operation)]
  | operand => .any [.token .identifier, .token .integer, .token .trueWord, .token .falseWord,
    .all [.any [.token .bang, .token .minus], .rule expression],
    .all [.token .leftParen, .rule expression, .token .rightParen],
    .all [.token .functionWord, .token .leftParen,
      .optional (.separated (.token .identifier)), .token .rightParen, .rule block]]
  | operation => .any [
    .all [.any [.token .equal, .token .notEqual, .token .less, .token .greater, .token .plus,
      .token .minus, .token .asterisk, .token .slash], .rule expression],
    .all [.token .leftParen, .optional (.separated (.rule expression)), .token .rightParen]]

/-- What a form derives. -/
inductive Derives : Form → List Token → Prop where
  /-- A token of the kind. -/
  | token {token : Token} {kind : Kind} (same : token.kind = kind) :
      Derives (.token kind) [token]
  /-- What the rule of a symbol derives. -/
  | rule {name : Symbol} {tokens : List Token} (definition : Derives name.definition tokens) :
      Derives (.rule name) tokens
  /-- No token. -/
  | empty : Derives .empty []
  /-- The tokens of both forms. -/
  | sequence {left right : Form} {first rest : List Token} (head : Derives left first)
      (tail : Derives right rest) : Derives (.sequence left right) (first ++ rest)
  /-- The first form is chosen. -/
  | left {left right : Form} {tokens : List Token} (chosen : Derives left tokens) :
      Derives (.choice left right) tokens
  /-- The second form is chosen. -/
  | right {left right : Form} {tokens : List Token} (chosen : Derives right tokens) :
      Derives (.choice left right) tokens
  /-- The form is left out. -/
  | absent {form : Form} : Derives (.optional form) []
  /-- The form is there. -/
  | present {form : Form} {tokens : List Token} (derives : Derives form tokens) :
      Derives (.optional form) tokens
  /-- No more of the form. -/
  | stop {form : Form} : Derives (.many form) []
  /-- The form once more. -/
  | more {form : Form} {first rest : List Token} (head : Derives form first)
      (tail : Derives (.many form) rest) : Derives (.many form) (first ++ rest)

namespace Derives

variable {form : Form} {forms : List Form} {kind : Kind} {token : Token} {first rest : List Token}

/-- A form in front of others. -/
theorem part (head : Derives form first) (tail : Derives (.all forms) rest) :
    Derives (.all (form :: forms)) (first ++ rest) := .sequence head tail

/-- A token in front of other forms. -/
theorem word (same : token.kind = kind) (tail : Derives (.all forms) rest) :
    Derives (.all (.token kind :: forms)) (token :: rest) := .sequence (.token same) tail

/-- No further form. -/
theorem nothing : Derives (.all []) [] := .empty

/-- The last form. -/
theorem last (derives : Derives form rest) : Derives (.all [form]) rest := by
  have whole := part derives nothing
  rwa [List.append_nil] at whole

/-- A form that is left out in front of others. -/
theorem omitted (tail : Derives (.all forms) rest) :
    Derives (.all (.optional form :: forms)) rest := .sequence .absent tail

/-- A repeated form that does not come again in front of others. -/
theorem stopped (tail : Derives (.all forms) rest) :
    Derives (.all (.many form :: forms)) rest := .sequence .stop tail

/-- A repeated form that comes once more. -/
theorem again (head : Derives form first) (tail : Derives (.all (.many form :: forms)) rest) :
    Derives (.all (.many form :: forms)) (first ++ rest) := by
  cases tail with
  | sequence repeated behind =>
    rw [← List.append_assoc]
    exact .sequence (.more head repeated) behind

/-- A form of a list is chosen. -/
theorem of_mem {chosen : Form} {tokens : List Token} (listed : chosen ∈ forms)
    (derives : Derives chosen tokens) : Derives (.any forms) tokens := by
  induction forms with
  | nil => exact absurd listed List.not_mem_nil
  | cons form forms ih =>
    rcases List.mem_cons.mp listed with rfl | behind
    · exact .left derives
    · exact .right (ih behind)

end Derives

/-! ## Meanings -/

/-- A list of tokens in parts, each of which has a property. -/
inductive Repeats (holds : List Token → Prop) : List Token → Prop where
  /-- No part. -/
  | stop : Repeats holds []
  /-- A part in front of others. -/
  | more {first rest : List Token} (head : holds first) (tail : Repeats holds rest) :
      Repeats holds (first ++ rest)

/-- What a form means for lists of known tokens, where each symbol has a meaning. -/
def Form.Meaning (known : Token → Prop) (names : Symbol → List Token → Prop) :
    Form → List Token → Prop
  | .token kind, tokens => ∃ token, tokens = [token] ∧ token.kind = kind ∧ known token
  | .rule name, tokens => names name tokens
  | .empty, tokens => tokens = []
  | .nothing, _ => False
  | .sequence left right, tokens => ∃ first rest, tokens = first ++ rest ∧
    left.Meaning known names first ∧ right.Meaning known names rest
  | .choice left right, tokens => left.Meaning known names tokens ∨ right.Meaning known names tokens
  | .optional form, tokens => tokens = [] ∨ form.Meaning known names tokens
  | .many form, tokens => Repeats (form.Meaning known names) tokens

/-- What a form derives is in every meaning that the rules keep: derivations are the least one. -/
theorem Derives.meaning {known : Token → Prop} {names : Symbol → List Token → Prop}
    (kept : ∀ name tokens, name.definition.Meaning known names tokens → names name tokens)
    {form : Form} {tokens : List Token} (derives : Derives form tokens)
    (all_known : ∀ token ∈ tokens, known token) : form.Meaning known names tokens := by
  induction derives with
  | token same => exact ⟨_, rfl, same, all_known _ List.mem_cons_self⟩
  | rule _ ih => exact kept _ _ (ih all_known)
  | empty => rfl
  | sequence _ _ head tail =>
    rw [List.forall_mem_append] at all_known
    exact ⟨_, _, rfl, head all_known.1, tail all_known.2⟩
  | left _ ih => exact .inl (ih all_known)
  | right _ ih => exact .inr (ih all_known)
  | absent => exact .inl rfl
  | present _ ih => exact .inr (ih all_known)
  | stop => exact .stop
  | more _ _ head tail =>
    rw [List.forall_mem_append] at all_known
    exact .more (head all_known.1) (tail all_known.2)

end ExprLang.Grammar
