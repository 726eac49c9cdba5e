import ExprLang.Proofs.Building.Basic
import ExprLang.Proofs.Reading.Cut

/-!
# Expressions inside readings

An expression that is read as a whole somewhere in a source stands in a context: the constructs
around it with the tokens in front of it and behind it (`Around`). The context has the tree with the
expression, and the tree with a placeholder instead. It says what the expression is for the
construct directly around it (`Slot`), for what the parser makes of its absence depends on that.
-/

namespace ExprLang.Parser

/-- What an expression is for the construct directly around it. -/
inductive Slot where
  /-- The operand behind an operator that has one operand. -/
  | operand
  /-- The right operand of an operator that has two. -/
  | right
  /-- What is in parentheses. -/
  | group
  /-- One of several arguments. -/
  | argument
  /-- The only argument. -/
  | soleArgument
  /-- The value of a binding. -/
  | binding
  /-- The value of a function. -/
  | result
  /-- The test of a condition. -/
  | test
  /-- A statement of its own. -/
  | statement
deriving DecidableEq

/-- What an argument is that has the others behind it. -/
def Slot.firstOf (others : List Expr) : Slot :=
  if others.isEmpty then .soleArgument else .argument

/-- What is taken out of a source: an expression with its tokens. -/
structure Hole where
  /-- The expression. -/
  value : Expr
  /-- The tokens that it is read from. -/
  span : List Token
  /-- The tokens behind it, up to the end of the source. -/
  after : List Token
  /-- Where a placeholder for it stands. -/
  place : Position

/-- The tokens from the first one of an expression on. -/
def Hole.tokens (hole : Hole) : List Token := hole.span ++ hole.after

/-! ## Operators behind an expression -/

/-- The same operators behind two expressions, with the trees that each of them becomes part of. -/
inductive Trails (above : Precedence) :
    List Token → List Token → Expr → Expr → Expr → Expr → Nat → Prop where
  /-- No operator that binds tighter comes next. -/
  | none {left other : Expr} {rest : List Token} (looser : ¬ above < .ofKind (headKind rest)) :
      Trails above rest rest left other left other 0
  /-- An operator with its right operand, and the operators behind. -/
  | binary {sign : Token} {near far : Nat} {tokens middle rest : List Token}
      {left other right value found : Expr} (tighter : above < .ofKind sign.kind)
      (kind : sign.kind ≠ .leftParen)
      (operand : Reads (.expression (.ofKind sign.kind) right) near tokens middle)
      (more : Trails above middle rest (.binary sign.text left right sign.position)
        (.binary sign.text other right sign.position) value found far) :
      Trails above (sign :: tokens) rest left other value found (max near far)
  /-- A call, and the operators behind. -/
  | call {opening : Token} {near far : Nat} {tokens middle rest : List Token}
      {left other value found : Expr} {values : List Expr} (tighter : above < .call)
      (kind : opening.kind = .leftParen) (arguments : Reads (.arguments values) near tokens middle)
      (more : Trails above middle rest (.call left values opening.position)
        (.call other values opening.position) value found far) :
      Trails above (opening :: tokens) rest left other value found (max near far)

namespace Trails

variable {above : Precedence} {left other value found : Expr} {levels : Nat}
  {tokens rest : List Token}

/-- The operators behind the first expression. -/
theorem reads (trails : Trails above tokens rest left other value found levels) :
    Reads (.operators above left value) levels tokens rest := by
  induction trails with
  | none looser => exact .noOperator looser
  | binary tighter kind operand _ more => exact .binary tighter kind operand more
  | call tighter kind arguments _ more => exact .call tighter kind arguments more

/-- The operators behind the second expression. -/
theorem reads_other (trails : Trails above tokens rest left other value found levels) :
    Reads (.operators above other found) levels tokens rest := by
  induction trails with
  | none looser => exact .noOperator looser
  | binary tighter kind operand _ more => exact .binary tighter kind operand more
  | call tighter kind arguments _ more => exact .call tighter kind arguments more

end Trails

/-- Operators behind an expression can be read behind any other one. -/
theorem Reads.trails {above : Precedence} {left value : Expr} {levels : Nat}
    {tokens rest : List Token} (reads : Reads (.operators above left value) levels tokens rest)
    (other : Expr) : ∃ found, Trails above tokens rest left other value found levels := by
  generalize same : Phrase.operators above left value = phrase at reads
  induction reads generalizing left other with
  | noOperator looser =>
    cases same
    exact ⟨other, .none looser⟩
  | @binary _ sign _ _ _ _ _ _ right _ tighter kind operand _ _ more =>
    cases same
    obtain ⟨found, trails⟩ := more (.binary sign.text other right sign.position) rfl
    exact ⟨found, .binary tighter kind operand trails⟩
  | @call _ opening _ _ _ _ _ _ _ values tighter kind arguments _ _ more =>
    cases same
    obtain ⟨found, trails⟩ := more (.call other values opening.position) rfl
    exact ⟨found, .call tighter kind arguments trails⟩
  | _ => cases same

/-! ## Contexts -/

/-- The context of an expression inside a construct: the tokens in front of the expression, those
behind the construct, what the expression is for the construct directly around it, the construct
with the expression and the one with a placeholder instead, and the levels that are opened. Where
the expression is the whole construct, nothing is around it yet. -/
inductive Around (hole : Hole) :
    List Token → List Token → Option Slot → Phrase → Phrase → Nat → Prop where
  /-- The expression itself. -/
  | here {above : Precedence} {levels : Nat}
      (reads : Reads (.expression above hole.value) levels hole.tokens hole.after) :
      Around hole [] hole.after none (.expression above hole.value)
        (.expression above (.missing hole.place)) levels
  /-- Inside the operand of an expression. -/
  | first {slot : Option Slot} {above : Precedence} {near far : Nat}
      {before middle rest : List Token} {left other value found : Expr}
      (first : Around hole before middle slot (.operand left) (.operand other) near)
      (more : Trails above middle rest left other value found far) :
      Around hole before rest slot (.expression above value) (.expression above found)
        (max near far + 1)
  /-- Inside the operators behind the operand of an expression. -/
  | operators {slot : Option Slot} {above : Precedence} {near far : Nat}
      {front before rest : List Token} {left value found : Expr}
      (first : Reads (.operand left) near (front ++ (before ++ hole.tokens))
        (before ++ hole.tokens))
      (more : Around hole before rest slot (.operators above left value)
        (.operators above left found) far) :
      Around hole (front ++ before) rest slot (.expression above value) (.expression above found)
        (max near far + 1)
  /-- Inside the operand behind an operator. -/
  | unary {slot : Option Slot} {sign : Token} {levels : Nat} {before rest : List Token}
      {value found : Expr} (kind : sign.kind = .bang ∨ sign.kind = .minus)
      (operand : Around hole before rest slot (.expression .unary value) (.expression .unary found)
        levels) :
      Around hole (sign :: before) rest (some (slot.getD .operand))
        (.operand (.unary sign.text value sign.position))
        (.operand (.unary sign.text found sign.position)) levels
  /-- Inside parentheses. -/
  | grouped {slot : Option Slot} {opening close : Token} {levels : Nat}
      {before rest : List Token} {value found : Expr} (kind : opening.kind = .leftParen)
      (inside : Around hole before (close :: rest) slot (.expression .lowest value)
        (.expression .lowest found) levels) (closing : close.kind = .rightParen) :
      Around hole (opening :: before) rest (some (slot.getD .group)) (.operand value)
        (.operand found) levels
  /-- Inside the body of a function literal. -/
  | function {slot : Option Slot} {keyword opening brace : Token} {levels : Nat}
      {front before rest : List Token} {names : List Ident} {body left : List Stmt}
      (kind : keyword.kind = .functionWord) (paren : opening.kind = .leftParen)
      (parameters : ReadsNames (front ++ brace :: (before ++ hole.tokens))
        (brace :: (before ++ hole.tokens)) names)
      (curly : brace.kind = .leftBrace)
      (block : Around hole before rest slot (.block body) (.block left) levels) :
      Around hole (keyword :: opening :: (front ++ brace :: before)) rest slot
        (.operand (.function names body keyword.position))
        (.operand (.function names left keyword.position)) levels
  /-- Inside the right operand of an operator. -/
  | right {slot : Option Slot} {above : Precedence} {sign : Token} {near far : Nat}
      {before middle rest : List Token} {left right other value found : Expr}
      (tighter : above < .ofKind sign.kind) (kind : sign.kind ≠ .leftParen)
      (operand : Around hole before middle slot (.expression (.ofKind sign.kind) right)
        (.expression (.ofKind sign.kind) other) near)
      (more : Trails above middle rest (.binary sign.text left right sign.position)
        (.binary sign.text left other sign.position) value found far) :
      Around hole (sign :: before) rest (some (slot.getD .right)) (.operators above left value)
        (.operators above left found) (max near far)
  /-- Inside the operators behind the right operand of another one. -/
  | behindBinary {slot : Option Slot} {above : Precedence} {sign : Token} {near far : Nat}
      {front before rest : List Token} {left right value found : Expr}
      (tighter : above < .ofKind sign.kind) (kind : sign.kind ≠ .leftParen)
      (operand : Reads (.expression (.ofKind sign.kind) right) near
        (front ++ (before ++ hole.tokens)) (before ++ hole.tokens))
      (more : Around hole before rest slot
        (.operators above (.binary sign.text left right sign.position) value)
        (.operators above (.binary sign.text left right sign.position) found) far) :
      Around hole (sign :: (front ++ before)) rest slot (.operators above left value)
        (.operators above left found) (max near far)
  /-- Inside the arguments of a call. -/
  | called {slot : Option Slot} {above : Precedence} {opening : Token} {near far : Nat}
      {before middle rest : List Token} {left value found : Expr} {values others : List Expr}
      (tighter : above < .call) (kind : opening.kind = .leftParen)
      (arguments : Around hole before middle slot (.arguments values) (.arguments others) near)
      (more : Trails above middle rest (.call left values opening.position)
        (.call left others opening.position) value found far) :
      Around hole (opening :: before) rest slot (.operators above left value)
        (.operators above left found) (max near far)
  /-- Inside the operators behind a call. -/
  | behindCall {slot : Option Slot} {above : Precedence} {opening : Token} {near far : Nat}
      {front before rest : List Token} {left value found : Expr} {values : List Expr}
      (tighter : above < .call) (kind : opening.kind = .leftParen)
      (arguments : Reads (.arguments values) near (front ++ (before ++ hole.tokens))
        (before ++ hole.tokens))
      (more : Around hole before rest slot
        (.operators above (.call left values opening.position) value)
        (.operators above (.call left values opening.position) found) far) :
      Around hole (opening :: (front ++ before)) rest slot (.operators above left value)
        (.operators above left found) (max near far)
  /-- Inside the first argument, which is the only one where no other stands behind it. -/
  | argument {slot : Option Slot} {near far : Nat} {before middle rest : List Token}
      {value found : Expr} {values : List Expr}
      (first : Around hole before middle slot (.expression .lowest value)
        (.expression .lowest found) near) (more : Reads (.moreArguments values) far middle rest) :
      Around hole before rest (some (slot.getD (.firstOf values)))
        (.arguments (value :: values)) (.arguments (found :: values)) (max near far)
  /-- Inside the arguments behind the first. -/
  | behindArgument {slot : Option Slot} {near far : Nat} {front before rest : List Token}
      {value : Expr} {values others : List Expr}
      (first : Reads (.expression .lowest value) near (front ++ (before ++ hole.tokens))
        (before ++ hole.tokens))
      (more : Around hole before rest slot (.moreArguments values) (.moreArguments others) far) :
      Around hole (front ++ before) rest slot (.arguments (value :: values))
        (.arguments (value :: others)) (max near far)
  /-- Inside an argument behind others. -/
  | nextArgument {slot : Option Slot} {comma : Token} {near far : Nat}
      {before middle rest : List Token} {value found : Expr} {values : List Expr}
      (separator : comma.kind = .comma)
      (first : Around hole before middle slot (.expression .lowest value)
        (.expression .lowest found) near) (more : Reads (.moreArguments values) far middle rest) :
      Around hole (comma :: before) rest (some (slot.getD .argument))
        (.moreArguments (value :: values)) (.moreArguments (found :: values)) (max near far)
  /-- Inside the arguments behind one that is not the first. -/
  | behindNextArgument {slot : Option Slot} {comma : Token} {near far : Nat}
      {front before rest : List Token} {value : Expr} {values others : List Expr}
      (separator : comma.kind = .comma)
      (first : Reads (.expression .lowest value) near (front ++ (before ++ hole.tokens))
        (before ++ hole.tokens))
      (more : Around hole before rest slot (.moreArguments values) (.moreArguments others) far) :
      Around hole (comma :: (front ++ before)) rest slot (.moreArguments (value :: values))
        (.moreArguments (value :: others)) (max near far)
  /-- Inside the statements of a block. -/
  | block {slot : Option Slot} {levels : Nat} {before rest : List Token} {body left : List Stmt}
      (inside : Around hole before rest slot (.statements body) (.statements left) levels) :
      Around hole before rest slot (.block body) (.block left) (levels + 1)
  /-- Inside a statement with others behind it. -/
  | nextStatement {slot : Option Slot} {near far : Nat} {before middle rest : List Token}
      {value found : Stmt} {values : List Stmt}
      (first : Around hole before middle slot (.statement value) (.statement found) near)
      (more : Reads (.statements values) far middle rest) :
      Around hole before rest slot (.statements (value :: values)) (.statements (found :: values))
        (max near far)
  /-- Inside the statements behind another one. -/
  | behindStatement {slot : Option Slot} {near far : Nat} {front before rest : List Token}
      {value : Stmt} {values others : List Stmt}
      (first : Reads (.statement value) near (front ++ (before ++ hole.tokens))
        (before ++ hole.tokens))
      (more : Around hole before rest slot (.statements values) (.statements others) far) :
      Around hole (front ++ before) rest slot (.statements (value :: values))
        (.statements (value :: others)) (max near far)
  /-- Inside the value of a binding. -/
  | binding {slot : Option Slot} {keyword target sign close : Token} {levels : Nat}
      {before rest : List Token} {value found : Expr} (kind : keyword.kind = .letWord)
      (named : target.kind = .identifier) (assigned : sign.kind = .assign)
      (inside : Around hole before (close :: rest) slot (.expression .lowest value)
        (.expression .lowest found) levels) (closing : close.kind = .semicolon) :
      Around hole (keyword :: target :: sign :: before) rest (some (slot.getD .binding))
        (.statement (.binding ⟨target.text, target.position⟩ value keyword.position))
        (.statement (.binding ⟨target.text, target.position⟩ found keyword.position)) levels
  /-- Inside the value of a function. -/
  | result {slot : Option Slot} {keyword close : Token} {levels : Nat} {before rest : List Token}
      {value found : Expr} (kind : keyword.kind = .returnWord)
      (inside : Around hole before (close :: rest) slot (.expression .lowest value)
        (.expression .lowest found) levels) (closing : close.kind = .semicolon) :
      Around hole (keyword :: before) rest (some (slot.getD .result))
        (.statement (.result (some value) keyword.position))
        (.statement (.result (some found) keyword.position)) levels
  /-- Inside an expression with a semicolon, behind its first token. -/
  | terminated {slot : Slot} {first close : Token} {levels : Nat} {before rest : List Token}
      {value found : Expr}
      (inside : Around hole (first :: before) (close :: rest) (some slot)
        (.expression .lowest value) (.expression .lowest found) levels)
      (closing : close.kind = .semicolon) :
      Around hole (first :: before) rest (some slot) (.statement (.expression value first.position))
        (.statement (.expression found first.position)) levels
  /-- Inside an expression without a semicolon, behind its first token. -/
  | unterminated {slot : Slot} {first : Token} {levels : Nat} {before rest : List Token}
      {value found : Expr}
      (inside : Around hole (first :: before) rest (some slot) (.expression .lowest value)
        (.expression .lowest found) levels) (following : headKind rest ≠ .semicolon) :
      Around hole (first :: before) rest (some slot) (.statement (.expression value first.position))
        (.statement (.expression found first.position)) levels
  /-- An expression that is a statement with a semicolon. -/
  | wholeTerminated {first close : Token} {levels : Nat} {tokens rest : List Token}
      (begins : hole.span = first :: tokens) (behind : hole.after = close :: rest)
      (reads : Reads (.expression .lowest hole.value) levels hole.tokens hole.after)
      (closing : close.kind = .semicolon) :
      Around hole [] rest (some .statement) (.statement (.expression hole.value first.position))
        (.statement (.expression (.missing hole.place) hole.place)) levels
  /-- An expression that is a statement without a semicolon. -/
  | wholeUnterminated {first : Token} {levels : Nat} {tokens : List Token}
      (begins : hole.span = first :: tokens)
      (reads : Reads (.expression .lowest hole.value) levels hole.tokens hole.after)
      (following : headKind hole.after ≠ .semicolon) :
      Around hole [] hole.after (some .statement)
        (.statement (.expression hole.value first.position))
        (.statement (.expression (.missing hole.place) hole.place)) levels
  /-- Inside the test of a condition with one branch. -/
  | test {slot : Option Slot} {keyword opening close brace : Token} {near far : Nat}
      {before inside rest : List Token} {test found : Expr} {consequence : List Stmt}
      (kind : keyword.kind = .ifWord) (paren : opening.kind = .leftParen)
      (tested : Around hole before (close :: brace :: inside) slot (.expression .lowest test)
        (.expression .lowest found) near)
      (closing : close.kind = .rightParen) (curly : brace.kind = .leftBrace)
      (block : Reads (.block consequence) far inside rest)
      (following : headKind rest ≠ .elseWord) :
      Around hole (keyword :: opening :: before) rest (some (slot.getD .test))
        (.statement (.condition test consequence none keyword.position))
        (.statement (.condition found consequence none keyword.position)) (max near far)
  /-- Inside the branch of a condition with one branch. -/
  | consequence {slot : Option Slot} {keyword opening close brace : Token} {near far : Nat}
      {front before rest : List Token} {test : Expr} {consequence left : List Stmt}
      (kind : keyword.kind = .ifWord) (paren : opening.kind = .leftParen)
      (tested : Reads (.expression .lowest test) near
        (front ++ close :: brace :: (before ++ hole.tokens))
        (close :: brace :: (before ++ hole.tokens)))
      (closing : close.kind = .rightParen) (curly : brace.kind = .leftBrace)
      (block : Around hole before rest slot (.block consequence) (.block left) far)
      (following : headKind rest ≠ .elseWord) :
      Around hole (keyword :: opening :: (front ++ close :: brace :: before)) rest slot
        (.statement (.condition test consequence none keyword.position))
        (.statement (.condition test left none keyword.position)) (max near far)
  /-- Inside the test of a condition with two branches. -/
  | testOfTwo {slot : Option Slot} {keyword opening close brace other curl : Token}
      {near far further : Nat} {before inside behind rest : List Token} {test found : Expr}
      {consequence alternative : List Stmt}
      (kind : keyword.kind = .ifWord) (paren : opening.kind = .leftParen)
      (tested : Around hole before (close :: brace :: inside) slot (.expression .lowest test)
        (.expression .lowest found) near)
      (closing : close.kind = .rightParen) (curly : brace.kind = .leftBrace)
      (block : Reads (.block consequence) far inside (other :: curl :: behind))
      (otherwise : other.kind = .elseWord) (curled : curl.kind = .leftBrace)
      (second : Reads (.block alternative) further behind rest) :
      Around hole (keyword :: opening :: before) rest (some (slot.getD .test))
        (.statement (.condition test consequence (some alternative) keyword.position))
        (.statement (.condition found consequence (some alternative) keyword.position))
        (max near (max far further))
  /-- Inside the first branch of a condition with two. -/
  | firstOfTwo {slot : Option Slot} {keyword opening close brace other curl : Token}
      {near far further : Nat} {front before behind rest : List Token} {test : Expr}
      {consequence left alternative : List Stmt}
      (kind : keyword.kind = .ifWord) (paren : opening.kind = .leftParen)
      (tested : Reads (.expression .lowest test) near
        (front ++ close :: brace :: (before ++ hole.tokens))
        (close :: brace :: (before ++ hole.tokens)))
      (closing : close.kind = .rightParen) (curly : brace.kind = .leftBrace)
      (block : Around hole before (other :: curl :: behind) slot (.block consequence) (.block left)
        far)
      (otherwise : other.kind = .elseWord) (curled : curl.kind = .leftBrace)
      (second : Reads (.block alternative) further behind rest) :
      Around hole (keyword :: opening :: (front ++ close :: brace :: before)) rest slot
        (.statement (.condition test consequence (some alternative) keyword.position))
        (.statement (.condition test left (some alternative) keyword.position))
        (max near (max far further))
  /-- Inside the second branch of a condition. -/
  | secondOfTwo {slot : Option Slot} {keyword opening close brace other curl : Token}
      {near far further : Nat} {front inside before rest : List Token} {test : Expr}
      {consequence alternative left : List Stmt}
      (kind : keyword.kind = .ifWord) (paren : opening.kind = .leftParen)
      (tested : Reads (.expression .lowest test) near
        (front ++ close :: brace :: (inside ++ other :: curl :: (before ++ hole.tokens)))
        (close :: brace :: (inside ++ other :: curl :: (before ++ hole.tokens))))
      (closing : close.kind = .rightParen) (curly : brace.kind = .leftBrace)
      (block : Reads (.block consequence) far
        (inside ++ other :: curl :: (before ++ hole.tokens))
        (other :: curl :: (before ++ hole.tokens)))
      (otherwise : other.kind = .elseWord) (curled : curl.kind = .leftBrace)
      (second : Around hole before rest slot (.block alternative) (.block left) further) :
      Around hole (keyword :: opening :: (front ++ close :: brace ::
        (inside ++ other :: curl :: before))) rest slot
        (.statement (.condition test consequence (some alternative) keyword.position))
        (.statement (.condition test consequence (some left) keyword.position))
        (max near (max far further))

/-- The context of an expression inside a program: the tokens in front of it, the statements with
the expression and those with a placeholder instead, and the levels that are opened. -/
inductive AroundProgram (hole : Hole) (slot : Slot) :
    List Token → List Stmt → List Stmt → Nat → Prop where
  /-- Inside a statement with others behind it. -/
  | next {near far : Nat} {before middle : List Token} {value found : Stmt} {values : List Stmt}
      (first : Around hole before middle (some slot) (.statement value) (.statement found) near)
      (more : ReadsProgram far middle values) :
      AroundProgram hole slot before (value :: values) (found :: values) (max near far)
  /-- Inside the statements behind another one. -/
  | behind {near far : Nat} {front before : List Token} {value : Stmt} {values others : List Stmt}
      (first : Reads (.statement value) near (front ++ (before ++ hole.tokens))
        (before ++ hole.tokens))
      (more : AroundProgram hole slot before values others far) :
      AroundProgram hole slot (front ++ before) (value :: values) (value :: others) (max near far)

/-! ## The tree with the expression -/

/-- In its context an expression is read as part of the construct. -/
theorem Around.reads {hole : Hole} {slot : Option Slot} {phrase lacking : Phrase} {levels : Nat}
    {before rest : List Token} (around : Around hole before rest slot phrase lacking levels) :
    Reads phrase levels (before ++ hole.tokens) rest := by
  induction around with
  | here reads => exact reads
  | first _ more first => exact .expression first more.reads
  | operators first _ more =>
    rw [List.append_assoc]
    exact .expression first more
  | unary kind _ operand => exact .unary kind operand
  | grouped kind _ closing inside => exact .grouped kind inside closing
  | function kind paren parameters curly _ block =>
    simp only [List.cons_append, List.append_assoc]
    exact .function kind paren parameters curly block
  | right tighter kind _ more operand => exact .binary tighter kind operand more.reads
  | behindBinary tighter kind operand _ more =>
    rw [List.cons_append, List.append_assoc]
    exact .binary tighter kind operand more
  | called tighter kind _ more arguments => exact .call tighter kind arguments more.reads
  | behindCall tighter kind arguments _ more =>
    rw [List.cons_append, List.append_assoc]
    exact .call tighter kind arguments more
  | argument _ more first => exact .arguments first more
  | behindArgument first _ more =>
    rw [List.append_assoc]
    exact .arguments first more
  | nextArgument separator _ more first => exact .nextArgument separator first more
  | behindNextArgument separator first _ more =>
    rw [List.cons_append, List.append_assoc]
    exact .nextArgument separator first more
  | block _ inside => exact .block inside
  | nextStatement _ more first => exact .nextStatement first more
  | behindStatement first _ more =>
    rw [List.append_assoc]
    exact .nextStatement first more
  | binding kind named assigned _ closing inside =>
    exact .binding kind named assigned inside closing
  | result kind _ closing inside => exact .result kind inside closing
  | terminated _ closing inside => exact .terminated inside closing
  | unterminated _ following inside => exact .unterminated inside following
  | wholeTerminated begins behind reads closing =>
    rw [List.nil_append]
    rw [Hole.tokens, begins, behind] at *
    exact .terminated reads closing
  | wholeUnterminated begins reads following =>
    rw [List.nil_append]
    rw [Hole.tokens, begins] at *
    exact .unterminated reads following
  | test kind paren _ closing curly block following tested =>
    exact .condition kind paren tested closing curly block following
  | consequence kind paren tested closing curly _ following block =>
    simp only [List.cons_append, List.append_assoc]
    exact .condition kind paren tested closing curly block following
  | testOfTwo kind paren _ closing curly block otherwise curled second tested =>
    exact .alternative kind paren tested closing curly block otherwise curled second
  | firstOfTwo kind paren tested closing curly _ otherwise curled second block =>
    simp only [List.cons_append, List.append_assoc]
    exact .alternative kind paren tested closing curly block otherwise curled second
  | secondOfTwo kind paren tested closing curly block otherwise curled _ second =>
    simp only [List.cons_append, List.append_assoc]
    exact .alternative kind paren tested closing curly block otherwise curled second

/-- In its context an expression is read as part of the program. -/
theorem AroundProgram.reads {hole : Hole} {slot : Slot} {values lacking : List Stmt} {levels : Nat}
    {before : List Token} (around : AroundProgram hole slot before values lacking levels) :
    ReadsProgram levels (before ++ hole.tokens) values := by
  induction around with
  | next first more => exact .next first.reads more
  | behind first _ more =>
    rw [List.append_assoc]
    exact .next first more

/-! ## The tree with a placeholder -/

/-- One part of a tree is another one with an expression in it exchanged, at one place. -/
inductive Replaced (old new : Expr) : Part → Part → Prop where
  /-- The expression itself. -/
  | here : Replaced old new (.expression old) (.expression new)
  /-- In an operand. -/
  | unary {value found : Expr} (operator : String) (position : Position)
      (operand : Replaced old new (.expression value) (.expression found)) :
      Replaced old new (.expression (.unary operator value position))
        (.expression (.unary operator found position))
  /-- In a left operand. -/
  | left {value found : Expr} (operator : String) (right : Expr) (position : Position)
      (operand : Replaced old new (.expression value) (.expression found)) :
      Replaced old new (.expression (.binary operator value right position))
        (.expression (.binary operator found right position))
  /-- In a right operand. -/
  | right {value found : Expr} (operator : String) (left : Expr) (position : Position)
      (operand : Replaced old new (.expression value) (.expression found)) :
      Replaced old new (.expression (.binary operator left value position))
        (.expression (.binary operator left found position))
  /-- In a callee. -/
  | callee {value found : Expr} (values : List Expr) (position : Position)
      (called : Replaced old new (.expression value) (.expression found)) :
      Replaced old new (.expression (.call value values position))
        (.expression (.call found values position))
  /-- In the arguments of a call. -/
  | called {values others : List Expr} (callee : Expr) (position : Position)
      (arguments : Replaced old new (.arguments values) (.arguments others)) :
      Replaced old new (.expression (.call callee values position))
        (.expression (.call callee others position))
  /-- In the first of some arguments. -/
  | argument {value found : Expr} (values : List Expr)
      (first : Replaced old new (.expression value) (.expression found)) :
      Replaced old new (.arguments (value :: values)) (.arguments (found :: values))
  /-- In the arguments behind the first. -/
  | behindArgument {values others : List Expr} (value : Expr)
      (more : Replaced old new (.arguments values) (.arguments others)) :
      Replaced old new (.arguments (value :: values)) (.arguments (value :: others))
  /-- In the body of a function literal. -/
  | function {body left : List Stmt} (names : List Ident) (position : Position)
      (inside : Replaced old new (.block body) (.block left)) :
      Replaced old new (.expression (.function names body position))
        (.expression (.function names left position))
  /-- In the statements of a block. -/
  | block {body left : List Stmt}
      (inside : Replaced old new (.statements body) (.statements left)) :
      Replaced old new (.block body) (.block left)
  /-- In the first of some statements. -/
  | statement {value found : Stmt} (values : List Stmt)
      (first : Replaced old new (.statement value) (.statement found)) :
      Replaced old new (.statements (value :: values)) (.statements (found :: values))
  /-- In the statements behind the first. -/
  | behindStatement {values others : List Stmt} (value : Stmt)
      (more : Replaced old new (.statements values) (.statements others)) :
      Replaced old new (.statements (value :: values)) (.statements (value :: others))
  /-- In the value of a binding. -/
  | binding {value found : Expr} (target : Ident) (position : Position)
      (inside : Replaced old new (.expression value) (.expression found)) :
      Replaced old new (.statement (.binding target value position))
        (.statement (.binding target found position))
  /-- In the value of a function. -/
  | result {value found : Expr} (position : Position)
      (inside : Replaced old new (.expression value) (.expression found)) :
      Replaced old new (.statement (.result (some value) position))
        (.statement (.result (some found) position))
  /-- In an expression on its own, which stands where its first token does. -/
  | expression {value found : Expr} (position other : Position)
      (inside : Replaced old new (.expression value) (.expression found)) :
      Replaced old new (.statement (.expression value position))
        (.statement (.expression found other))
  /-- In the test of a condition. -/
  | test {value found : Expr} (consequence : List Stmt) (alternative : Option (List Stmt))
      (position : Position) (inside : Replaced old new (.expression value) (.expression found)) :
      Replaced old new (.statement (.condition value consequence alternative position))
        (.statement (.condition found consequence alternative position))
  /-- In the first branch of a condition. -/
  | consequence {body left : List Stmt} (test : Expr) (alternative : Option (List Stmt))
      (position : Position) (inside : Replaced old new (.block body) (.block left)) :
      Replaced old new (.statement (.condition test body alternative position))
        (.statement (.condition test left alternative position))
  /-- In the second branch of a condition. -/
  | alternative {body left : List Stmt} (test : Expr) (consequence : List Stmt)
      (position : Position) (inside : Replaced old new (.block body) (.block left)) :
      Replaced old new (.statement (.condition test consequence (some body) position))
        (.statement (.condition test consequence (some left) position))

/-- The tree of a construct. -/
def Phrase.part : Phrase → Part
  | .expression _ value | .operand value | .operators _ _ value => .expression value
  | .arguments values | .moreArguments values => .arguments values
  | .block body => .block body
  | .statements values => .statements values
  | .statement value => .statement value

/-- Operators behind two expressions keep what is exchanged in the first one. -/
theorem Trails.replaced {above : Precedence} {tokens rest : List Token}
    {left other value found old new : Expr} {levels : Nat}
    (trails : Trails above tokens rest left other value found levels)
    (start : Replaced old new (.expression left) (.expression other)) :
    Replaced old new (.expression value) (.expression found) := by
  induction trails with
  | none => exact start
  | binary _ _ _ _ more => exact more (.left _ _ _ start)
  | call _ _ _ _ more => exact more (.callee _ _ start)

/-- A context has the tree with the expression and the one with a placeholder for it, and the two
differ in nothing else. -/
theorem Around.replaced {hole : Hole} {before rest : List Token} {slot : Option Slot}
    {phrase lacking : Phrase} {levels : Nat}
    (around : Around hole before rest slot phrase lacking levels) :
    Replaced hole.value (.missing hole.place) phrase.part lacking.part := by
  induction around with
  | here => exact .here
  | first _ more first => exact more.replaced first
  | operators _ _ more | behindBinary _ _ _ _ more | behindCall _ _ _ _ more => exact more
  | unary _ _ operand => exact .unary _ _ operand
  | grouped _ _ _ inside => exact inside
  | function _ _ _ _ _ block => exact .function _ _ block
  | right _ _ _ more operand => exact more.replaced (.right _ _ _ operand)
  | called _ _ _ more arguments => exact more.replaced (.called _ _ arguments)
  | argument _ _ first | nextArgument _ _ _ first => exact .argument _ first
  | behindArgument _ _ more | behindNextArgument _ _ _ more => exact .behindArgument _ more
  | block _ inside => exact .block inside
  | nextStatement _ _ first => exact .statement _ first
  | behindStatement _ _ more => exact .behindStatement _ more
  | binding _ _ _ _ _ inside => exact .binding _ _ inside
  | result _ _ _ inside => exact .result _ inside
  | terminated _ _ inside | unterminated _ _ inside => exact .expression _ _ inside
  | wholeTerminated | wholeUnterminated => exact .expression _ _ .here
  | test _ _ _ _ _ _ _ tested | testOfTwo _ _ _ _ _ _ _ _ _ tested => exact .test _ _ _ tested
  | consequence _ _ _ _ _ _ _ block | firstOfTwo _ _ _ _ _ _ _ _ _ block =>
    exact .consequence _ _ _ block
  | secondOfTwo _ _ _ _ _ _ _ _ _ second => exact .alternative _ _ _ second

/-- A context in a program has the statements with the expression and those with a placeholder for
it, and the two differ in nothing else. -/
theorem AroundProgram.replaced {hole : Hole} {slot : Slot} {before : List Token}
    {values lacking : List Stmt} {levels : Nat}
    (around : AroundProgram hole slot before values lacking levels) :
    Replaced hole.value (.missing hole.place) (.statements values) (.statements lacking) := by
  induction around with
  | next first _ => exact .statement _ first.replaced
  | behind _ _ more => exact .behindStatement _ more

end ExprLang.Parser
