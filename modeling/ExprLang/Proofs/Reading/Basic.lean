import ExprLang.Parser.Grammar

/-!
# Readings

A reading says what a parser makes of a list of tokens in which nothing is wrong: the tree with
its positions, the tokens behind it, and how many levels of expressions and blocks it opens.
Readings are told by rules of inference with one token of lookahead, where the parser has loops
over a state, and know neither states nor bounds. Three further modules say that readings are
exactly the runs of the parser without a diagnostic.
-/

namespace ExprLang

/-- Whether a token of a kind begins an operand. -/
def Kind.startsOperand : Kind → Bool
  | .identifier | .integer | .trueWord | .falseWord | .bang | .minus | .leftParen
  | .functionWord => true
  | _ => false

/-- A token that begins operands does not end an expression. -/
theorem Kind.endsExpression_of_startsOperand {kind : Kind} (begins : kind.startsOperand = true) :
    kind.endsExpression = false := by
  cases kind <;> first | rfl | exact absurd begins (by decide)

namespace Parser

/-- The kind of the first token, the end of input where there is none. -/
def headKind : List Token → Kind
  | [] => .endOfInput
  | token :: _ => token.kind

/-- A construct of a source with its tree. -/
inductive Phrase where
  /-- An expression whose operators bind tighter than a level. -/
  | expression (above : Precedence) (value : Expr)
  /-- An operand. -/
  | operand (value : Expr)
  /-- The operators behind an expression, which become one tree with it. -/
  | operators (above : Precedence) (left value : Expr)
  /-- Arguments behind their opening parenthesis, the closing one included. -/
  | arguments (values : List Expr)
  /-- The arguments behind the first, the closing parenthesis included. -/
  | moreArguments (values : List Expr)
  /-- A block behind its opening brace, the closing one included. -/
  | block (body : List Stmt)
  /-- The last statements of a block, the closing brace included. -/
  | statements (values : List Stmt)
  /-- A statement. -/
  | statement (value : Stmt)

/-- The names behind the first parameter, the closing parenthesis included. -/
inductive ReadsMoreNames : List Token → List Token → List Ident → Prop where
  /-- No further name. -/
  | last {close : Token} {rest : List Token} (closing : close.kind = .rightParen) :
      ReadsMoreNames (close :: rest) rest []
  /-- A comma and a name. -/
  | next {comma name : Token} {tokens rest : List Token} {names : List Ident}
      (separator : comma.kind = .comma) (named : name.kind = .identifier)
      (more : ReadsMoreNames tokens rest names) :
      ReadsMoreNames (comma :: name :: tokens) rest (⟨name.text, name.position⟩ :: names)

/-- Parameters behind their opening parenthesis, the closing one included. -/
inductive ReadsNames : List Token → List Token → List Ident → Prop where
  /-- No name. -/
  | none {close : Token} {rest : List Token} (closing : close.kind = .rightParen) :
      ReadsNames (close :: rest) rest []
  /-- A name and those behind it. -/
  | some {name : Token} {tokens rest : List Token} {names : List Ident}
      (named : name.kind = .identifier) (more : ReadsMoreNames tokens rest names) :
      ReadsNames (name :: tokens) rest (⟨name.text, name.position⟩ :: names)

/-- The readings of constructs: the construct with its tree, the levels that are opened, the
tokens from the first one on, and the tokens behind the last one. -/
inductive Reads : Phrase → Nat → List Token → List Token → Prop where
  /-- An expression is an operand with operators behind it. -/
  | expression {above : Precedence} {near far : Nat} {tokens middle rest : List Token}
      {left value : Expr} (first : Reads (.operand left) near tokens middle)
      (more : Reads (.operators above left value) far middle rest) :
      Reads (.expression above value) (max near far + 1) tokens rest
  /-- A name. -/
  | name {token : Token} {rest : List Token} (kind : token.kind = .identifier) :
      Reads (.operand (.name ⟨token.text, token.position⟩)) 0 (token :: rest) rest
  /-- An integer. -/
  | integer {token : Token} {rest : List Token} {value : Int} (kind : token.kind = .integer)
      (readable : readInteger? token.text = some value) :
      Reads (.operand (.integer value token.position)) 0 (token :: rest) rest
  /-- A truth value. -/
  | boolean {token : Token} {rest : List Token}
      (kind : token.kind = .trueWord ∨ token.kind = .falseWord) :
      Reads (.operand (.boolean (token.kind = .trueWord) token.position)) 0 (token :: rest) rest
  /-- An operator before its operand. -/
  | unary {sign : Token} {levels : Nat} {tokens rest : List Token} {value : Expr}
      (kind : sign.kind = .bang ∨ sign.kind = .minus)
      (operand : Reads (.expression .unary value) levels tokens rest) :
      Reads (.operand (.unary sign.text value sign.position)) levels (sign :: tokens) rest
  /-- An expression in parentheses. -/
  | grouped {opening close : Token} {levels : Nat} {tokens rest : List Token} {value : Expr}
      (kind : opening.kind = .leftParen)
      (inside : Reads (.expression .lowest value) levels tokens (close :: rest))
      (closing : close.kind = .rightParen) :
      Reads (.operand value) levels (opening :: tokens) rest
  /-- A function literal. -/
  | function {keyword opening brace : Token} {levels : Nat} {tokens inside rest : List Token}
      {names : List Ident} {body : List Stmt} (kind : keyword.kind = .functionWord)
      (paren : opening.kind = .leftParen) (parameters : ReadsNames tokens (brace :: inside) names)
      (curly : brace.kind = .leftBrace) (block : Reads (.block body) levels inside rest) :
      Reads (.operand (.function names body keyword.position)) levels
        (keyword :: opening :: tokens) rest
  /-- No operator that binds tighter comes next. -/
  | noOperator {above : Precedence} {left : Expr} {rest : List Token}
      (looser : ¬ above < .ofKind (headKind rest)) :
      Reads (.operators above left left) 0 rest rest
  /-- An operator with its right operand, and the operators behind. -/
  | binary {above : Precedence} {sign : Token} {near far : Nat} {tokens middle rest : List Token}
      {left right value : Expr} (tighter : above < .ofKind sign.kind)
      (kind : sign.kind ≠ .leftParen)
      (operand : Reads (.expression (.ofKind sign.kind) right) near tokens middle)
      (more : Reads (.operators above (.binary sign.text left right sign.position) value) far
        middle rest) :
      Reads (.operators above left value) (max near far) (sign :: tokens) rest
  /-- A call, and the operators behind. -/
  | call {above : Precedence} {opening : Token} {near far : Nat}
      {tokens middle rest : List Token} {left value : Expr} {values : List Expr}
      (tighter : above < .call) (kind : opening.kind = .leftParen)
      (arguments : Reads (.arguments values) near tokens middle)
      (more : Reads (.operators above (.call left values opening.position) value) far middle rest) :
      Reads (.operators above left value) (max near far) (opening :: tokens) rest
  /-- No argument. -/
  | noArgument {close : Token} {rest : List Token} (closing : close.kind = .rightParen) :
      Reads (.arguments []) 0 (close :: rest) rest
  /-- An argument and those behind it. -/
  | arguments {near far : Nat} {tokens middle rest : List Token} {value : Expr}
      {values : List Expr} (first : Reads (.expression .lowest value) near tokens middle)
      (more : Reads (.moreArguments values) far middle rest) :
      Reads (.arguments (value :: values)) (max near far) tokens rest
  /-- No further argument. -/
  | lastArgument {close : Token} {rest : List Token} (closing : close.kind = .rightParen) :
      Reads (.moreArguments []) 0 (close :: rest) rest
  /-- A comma, an argument and those behind it. -/
  | nextArgument {comma : Token} {near far : Nat} {tokens middle rest : List Token}
      {value : Expr} {values : List Expr} (separator : comma.kind = .comma)
      (first : Reads (.expression .lowest value) near tokens middle)
      (more : Reads (.moreArguments values) far middle rest) :
      Reads (.moreArguments (value :: values)) (max near far) (comma :: tokens) rest
  /-- A block is made of statements. -/
  | block {levels : Nat} {tokens rest : List Token} {body : List Stmt}
      (inside : Reads (.statements body) levels tokens rest) :
      Reads (.block body) (levels + 1) tokens rest
  /-- No further statement. -/
  | lastStatement {close : Token} {rest : List Token} (closing : close.kind = .rightBrace) :
      Reads (.statements []) 0 (close :: rest) rest
  /-- A statement and those behind it. -/
  | nextStatement {near far : Nat} {tokens middle rest : List Token} {value : Stmt}
      {values : List Stmt} (first : Reads (.statement value) near tokens middle)
      (more : Reads (.statements values) far middle rest) :
      Reads (.statements (value :: values)) (max near far) tokens rest
  /-- A binding. -/
  | binding {keyword target sign close : Token} {levels : Nat} {tokens rest : List Token}
      {value : Expr} (kind : keyword.kind = .letWord) (named : target.kind = .identifier)
      (assigned : sign.kind = .assign)
      (inside : Reads (.expression .lowest value) levels tokens (close :: rest))
      (closing : close.kind = .semicolon) :
      Reads (.statement (.binding ⟨target.text, target.position⟩ value keyword.position)) levels
        (keyword :: target :: sign :: tokens) rest
  /-- The end of a function without a value. -/
  | bareResult {keyword close : Token} {rest : List Token} (kind : keyword.kind = .returnWord)
      (closing : close.kind = .semicolon) :
      Reads (.statement (.result none keyword.position)) 0 (keyword :: close :: rest) rest
  /-- The end of a function with a value. -/
  | result {keyword close : Token} {levels : Nat} {tokens rest : List Token} {value : Expr}
      (kind : keyword.kind = .returnWord)
      (inside : Reads (.expression .lowest value) levels tokens (close :: rest))
      (closing : close.kind = .semicolon) :
      Reads (.statement (.result (some value) keyword.position)) levels (keyword :: tokens) rest
  /-- An expression with a semicolon. -/
  | terminated {first close : Token} {levels : Nat} {tokens rest : List Token} {value : Expr}
      (inside : Reads (.expression .lowest value) levels (first :: tokens) (close :: rest))
      (closing : close.kind = .semicolon) :
      Reads (.statement (.expression value first.position)) levels (first :: tokens) rest
  /-- An expression without a semicolon. -/
  | unterminated {first : Token} {levels : Nat} {tokens rest : List Token} {value : Expr}
      (inside : Reads (.expression .lowest value) levels (first :: tokens) rest)
      (following : headKind rest ≠ .semicolon) :
      Reads (.statement (.expression value first.position)) levels (first :: tokens) rest
  /-- A condition with one branch. -/
  | condition {keyword opening close brace : Token} {near far : Nat}
      {tokens inside rest : List Token} {test : Expr} {consequence : List Stmt}
      (kind : keyword.kind = .ifWord) (paren : opening.kind = .leftParen)
      (tested : Reads (.expression .lowest test) near tokens (close :: brace :: inside))
      (closing : close.kind = .rightParen) (curly : brace.kind = .leftBrace)
      (block : Reads (.block consequence) far inside rest) (following : headKind rest ≠ .elseWord) :
      Reads (.statement (.condition test consequence none keyword.position)) (max near far)
        (keyword :: opening :: tokens) rest
  /-- A condition with two branches. -/
  | alternative {keyword opening close brace other curl : Token} {near far further : Nat}
      {tokens inside behind rest : List Token} {test : Expr} {consequence alternative : List Stmt}
      (kind : keyword.kind = .ifWord) (paren : opening.kind = .leftParen)
      (tested : Reads (.expression .lowest test) near tokens (close :: brace :: inside))
      (closing : close.kind = .rightParen) (curly : brace.kind = .leftBrace)
      (block : Reads (.block consequence) far inside (other :: curl :: behind))
      (otherwise : other.kind = .elseWord) (curled : curl.kind = .leftBrace)
      (second : Reads (.block alternative) further behind rest) :
      Reads (.statement (.condition test consequence (some alternative) keyword.position))
        (max near (max far further)) (keyword :: opening :: tokens) rest

/-- The readings of all statements of a source. -/
inductive ReadsProgram : Nat → List Token → List Stmt → Prop where
  /-- No statement. -/
  | done : ReadsProgram 0 [] []
  /-- A statement and those behind it. -/
  | next {near far : Nat} {tokens middle : List Token} {value : Stmt} {values : List Stmt}
      (first : Reads (.statement value) near tokens middle)
      (more : ReadsProgram far middle values) :
      ReadsProgram (max near far) tokens (value :: values)

/-! ## First tokens -/

/-- An operand begins with a token that begins operands. -/
theorem Reads.operand_begins {value : Expr} {levels : Nat} {tokens rest : List Token}
    (reads : Reads (.operand value) levels tokens rest) :
    (headKind tokens).startsOperand = true := by
  cases reads with
  | boolean kind => rcases kind with kind | kind <;> simp [headKind, Kind.startsOperand, kind]
  | unary kind _ => rcases kind with kind | kind <;> simp [headKind, Kind.startsOperand, kind]
  | _ => simp_all [headKind, Kind.startsOperand]

/-- An expression begins with a token that begins operands. -/
theorem Reads.expression_begins {above : Precedence} {value : Expr} {levels : Nat}
    {tokens rest : List Token} (reads : Reads (.expression above value) levels tokens rest) :
    (headKind tokens).startsOperand = true := by
  cases reads with
  | expression first _ => exact first.operand_begins

/-- An expression does not begin with a token that begins no operand. -/
theorem Reads.begins_apart {above : Precedence} {value : Expr} {levels : Nat}
    {tokens rest : List Token} (reads : Reads (.expression above value) levels tokens rest)
    {kind : Kind} (other : kind.startsOperand = false) : headKind tokens ≠ kind := by
  rintro rfl
  exact absurd (reads.expression_begins.symm.trans other) (by decide)

/-- A statement begins with its keyword or with an operand. -/
theorem Reads.statement_begins {value : Stmt} {levels : Nat} {tokens rest : List Token}
    (reads : Reads (.statement value) levels tokens rest) :
    (headKind tokens).startsStatement = true ∨ (headKind tokens).startsOperand = true := by
  cases reads with
  | terminated inside _ => exact .inr inside.expression_begins
  | unterminated inside _ => exact .inr inside.expression_begins
  | _ => simp_all [headKind, Kind.startsStatement]

end Parser

end ExprLang
