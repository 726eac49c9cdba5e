import ExprLang.Proofs.Hollow.Basic
import ExprLang.Proofs.Reading.Move
import ExprLang.Proofs.Relocation.Basic

/-!
# Contexts elsewhere

A context can be read at any other places: moving the positions of all tokens moves those of both
trees, and nothing else (`Around.moved`). Where the tokens of a list are at places of their own,
there is a move to the places of any other list of that length (`exists_move`).
-/

namespace ExprLang

open Movable (moved)

namespace Parser

variable (move : Position → Position)

/-- The construct with every position moved. -/
def Phrase.moved : Phrase → Phrase
  | .expression above value => .expression above (value.moved move)
  | .operand value => .operand (value.moved move)
  | .operators above left value => .operators above (left.moved move) (value.moved move)
  | .arguments values => .arguments (Expr.movedAll move values)
  | .moreArguments values => .moreArguments (Expr.movedAll move values)
  | .block body => .block (Stmt.movedAll move body)
  | .statements values => .statements (Stmt.movedAll move values)
  | .statement value => .statement (value.moved move)

/-- Further names are read at other places. -/
theorem ReadsMoreNames.moved {tokens rest : List Token} {names : List Ident}
    (reads : ReadsMoreNames tokens rest names) :
    ReadsMoreNames (tokens.map (Movable.moved move)) (rest.map (Movable.moved move))
      (names.map (Ident.moved move)) := by
  induction reads with
  | last closing => exact .last closing
  | next separator named _ more => exact .next separator named more

/-- Parameters are read at other places. -/
theorem ReadsNames.moved {tokens rest : List Token} {names : List Ident}
    (reads : ReadsNames tokens rest names) :
    ReadsNames (tokens.map (Movable.moved move)) (rest.map (Movable.moved move))
      (names.map (Ident.moved move)) := by
  cases reads with
  | none closing => exact .none closing
  | some named more => exact .some named (more.moved move)

/-- Constructs are read at other places. -/
theorem Reads.moved {phrase : Phrase} {levels : Nat} {tokens rest : List Token}
    (reads : Reads phrase levels tokens rest) :
    Reads (phrase.moved move) levels (tokens.map (Movable.moved move))
      (rest.map (Movable.moved move)) := by
  -- the tokens that a tree takes its texts and places from are given, for the trees tell them apart
  -- from the moved tokens only by their places
  induction reads with
  | expression _ _ first more => exact .expression first more
  | @name token _ kind => exact @Reads.name (Movable.moved move token) _ kind
  | @integer token _ _ kind readable =>
    exact @Reads.integer (Movable.moved move token) _ _ kind readable
  | @boolean token _ kind => exact @Reads.boolean (Movable.moved move token) _ kind
  | @unary sign _ _ _ _ kind _ operand =>
    exact @Reads.unary (Movable.moved move sign) _ _ _ _ kind operand
  | grouped kind _ closing inside => exact .grouped kind inside closing
  | @function keyword _ _ _ _ _ _ _ _ kind paren parameters curly _ block =>
    exact @Reads.function (Movable.moved move keyword) _ _ _ _ _ _ _ _ kind paren
      (parameters.moved move) curly block
  | noOperator looser => exact .noOperator (by rwa [headKind_moved])
  | @binary _ sign _ _ _ _ _ _ _ _ tighter kind _ _ operand more =>
    exact @Reads.binary _ (Movable.moved move sign) _ _ _ _ _ _ _ _ tighter kind operand more
  | @call _ opening _ _ _ _ _ _ _ _ tighter kind _ _ arguments more =>
    exact @Reads.call _ (Movable.moved move opening) _ _ _ _ _ _ _ _ tighter kind arguments more
  | noArgument closing => exact .noArgument closing
  | arguments _ _ first more => exact .arguments first more
  | lastArgument closing => exact .lastArgument closing
  | nextArgument separator _ _ first more => exact .nextArgument separator first more
  | block _ inside => exact .block inside
  | lastStatement closing => exact .lastStatement closing
  | nextStatement _ _ first more => exact .nextStatement first more
  | @binding keyword target _ _ _ _ _ _ kind named assigned _ closing inside =>
    exact @Reads.binding (Movable.moved move keyword) (Movable.moved move target) _ _ _ _ _ _ kind
      named assigned inside closing
  | @bareResult keyword _ _ kind closing =>
    exact @Reads.bareResult (Movable.moved move keyword) _ _ kind closing
  | @result keyword _ _ _ _ _ kind _ closing inside =>
    exact @Reads.result (Movable.moved move keyword) _ _ _ _ _ kind inside closing
  | @terminated first _ _ _ _ _ _ closing inside =>
    exact @Reads.terminated (Movable.moved move first) _ _ _ _ _ inside closing
  | @unterminated first _ _ _ _ _ following inside =>
    exact @Reads.unterminated (Movable.moved move first) _ _ _ _ inside (by rwa [headKind_moved])
  | @condition keyword _ _ _ _ _ _ _ _ _ _ kind paren _ closing curly _ following tested first =>
    exact @Reads.condition (Movable.moved move keyword) _ _ _ _ _ _ _ _ _ _ kind paren tested
      closing curly first (by rwa [headKind_moved])
  | @alternative keyword _ _ _ _ _ _ _ _ _ _ _ _ _ _ _ kind paren _ closing curly _ otherwise
      curled _ tested first second =>
    exact @Reads.alternative (Movable.moved move keyword) _ _ _ _ _ _ _ _ _ _ _ _ _ _ _ kind
      paren tested closing curly first otherwise curled second

/-- Programs are read at other places. -/
theorem ReadsProgram.moved {levels : Nat} {tokens : List Token} {values : List Stmt}
    (reads : ReadsProgram levels tokens values) :
    ReadsProgram levels (tokens.map (Movable.moved move)) (Stmt.movedAll move values) := by
  induction reads with
  | done => exact .done
  | next first _ more => exact .next (first.moved move) more

/-- Operators are read at other places. -/
theorem Trails.moved {above : Precedence} {tokens rest : List Token}
    {left other value found : Expr} {levels : Nat}
    (trails : Trails above tokens rest left other value found levels) :
    Trails above (tokens.map (Movable.moved move)) (rest.map (Movable.moved move))
      (left.moved move) (other.moved move) (value.moved move) (found.moved move) levels := by
  induction trails with
  | none looser => exact .none (by rwa [headKind_moved])
  | binary tighter kind operand _ more => exact .binary tighter kind (operand.moved move) more
  | call tighter kind arguments _ more => exact .call tighter kind (arguments.moved move) more

/-- What is taken out, at other places. -/
def Hole.moved (hole : Hole) : Hole :=
  ⟨hole.value.moved move, hole.span.map (Movable.moved move),
    hole.after.map (Movable.moved move), move hole.place⟩

/-- The tokens from the first one of an expression on, at other places. -/
@[simp]
theorem Hole.tokens_moved (hole : Hole) :
    (hole.moved move).tokens = hole.tokens.map (Movable.moved move) := by
  simp [Hole.tokens, Hole.moved]

/-- Whether an argument is the only one does not depend on its place. -/
@[simp]
theorem Slot.firstOf_moved (values : List Expr) :
    firstOf (Expr.movedAll move values) = firstOf values := by
  cases values <;> rfl

/-- A context is one at other places. -/
theorem Around.moved {hole : Hole} {before rest : List Token} {slot : Option Slot}
    {phrase lacking : Phrase} {levels : Nat}
    (around : Around hole before rest slot phrase lacking levels) :
    Around (hole.moved move) (before.map (Movable.moved move)) (rest.map (Movable.moved move)) slot
      (phrase.moved move) (lacking.moved move) levels := by
  -- the tokens of the parts in front of the expression are written as the ones passed, those in
  -- front of the expression, and those from it on
  induction around with
  | here reads =>
    have moved := reads.moved move
    rw [← Hole.tokens_moved] at moved
    exact .here moved
  | first _ more first => exact .first first (more.moved move)
  | operators first _ more =>
    have moved := first.moved move
    simp only [List.map_append, ← Hole.tokens_moved] at moved ⊢
    exact .operators moved more
  | unary kind _ operand => exact .unary kind operand
  | grouped kind _ closing inside => exact .grouped kind inside closing
  | function kind paren parameters curly _ block =>
    have moved := parameters.moved move
    simp only [List.map_append, List.map_cons, ← Hole.tokens_moved] at moved ⊢
    exact .function kind paren moved curly block
  | right tighter kind _ more operand => exact .right tighter kind operand (more.moved move)
  | behindBinary tighter kind operand _ more =>
    have moved := operand.moved move
    simp only [List.map_append, List.map_cons, ← Hole.tokens_moved] at moved ⊢
    exact .behindBinary tighter kind moved more
  | called tighter kind _ more arguments =>
    exact .called tighter kind arguments (more.moved move)
  | behindCall tighter kind arguments _ more =>
    have moved := arguments.moved move
    simp only [List.map_append, List.map_cons, ← Hole.tokens_moved] at moved ⊢
    exact .behindCall tighter kind moved more
  | argument _ more first =>
    rw [← Slot.firstOf_moved move]
    exact .argument first (more.moved move)
  | behindArgument first _ more =>
    have moved := first.moved move
    simp only [List.map_append, ← Hole.tokens_moved] at moved ⊢
    exact .behindArgument moved more
  | nextArgument separator _ more first => exact .nextArgument separator first (more.moved move)
  | behindNextArgument separator first _ more =>
    have moved := first.moved move
    simp only [List.map_append, List.map_cons, ← Hole.tokens_moved] at moved ⊢
    exact .behindNextArgument separator moved more
  | block _ inside => exact .block inside
  | nextStatement _ more first => exact .nextStatement first (more.moved move)
  | behindStatement first _ more =>
    have moved := first.moved move
    simp only [List.map_append, ← Hole.tokens_moved] at moved ⊢
    exact .behindStatement moved more
  | binding kind named assigned _ closing inside =>
    exact .binding kind named assigned inside closing
  | result kind _ closing inside => exact .result kind inside closing
  | terminated _ closing inside => exact .terminated inside closing
  | unterminated _ following inside => exact .unterminated inside (by rwa [headKind_moved])
  | @wholeTerminated first close _ tokens rest begins behind reads closing =>
    have span : (hole.moved move).span =
        Movable.moved move first :: tokens.map (Movable.moved move) := by
      simp [Hole.moved, begins]
    have after : (hole.moved move).after =
        Movable.moved move close :: rest.map (Movable.moved move) := by
      simp [Hole.moved, behind]
    have moved := reads.moved move
    rw [← Hole.tokens_moved] at moved
    exact .wholeTerminated span after moved closing
  | @wholeUnterminated first _ tokens begins reads following =>
    have span : (hole.moved move).span =
        Movable.moved move first :: tokens.map (Movable.moved move) := by
      simp [Hole.moved, begins]
    have moved := reads.moved move
    rw [← Hole.tokens_moved] at moved
    have behind : headKind (hole.moved move).after ≠ .semicolon := by
      rwa [← headKind_moved move] at following
    exact .wholeUnterminated span moved behind
  | test kind paren _ closing curly block following tested =>
    exact .test kind paren tested closing curly (block.moved move) (by rwa [headKind_moved])
  | consequence kind paren tested closing curly _ following block =>
    have moved := tested.moved move
    simp only [List.map_append, List.map_cons, ← Hole.tokens_moved] at moved ⊢
    exact .consequence kind paren moved closing curly block (by rwa [headKind_moved])
  | testOfTwo kind paren _ closing curly block otherwise curled second tested =>
    exact .testOfTwo kind paren tested closing curly (block.moved move) otherwise curled
      (second.moved move)
  | firstOfTwo kind paren tested closing curly _ otherwise curled second block =>
    have moved := tested.moved move
    simp only [List.map_append, List.map_cons, ← Hole.tokens_moved] at moved ⊢
    exact .firstOfTwo kind paren moved closing curly block otherwise curled (second.moved move)
  | secondOfTwo kind paren tested closing curly block otherwise curled _ second =>
    have moved := tested.moved move
    have moved_block := block.moved move
    simp only [List.map_append, List.map_cons, ← Hole.tokens_moved] at moved moved_block ⊢
    exact .secondOfTwo kind paren moved closing curly moved_block otherwise curled second

/-- A context in a program is one at other places. -/
theorem AroundProgram.moved {hole : Hole} {slot : Slot} {before : List Token}
    {values lacking : List Stmt} {levels : Nat}
    (around : AroundProgram hole slot before values lacking levels) :
    AroundProgram (hole.moved move) slot (before.map (Movable.moved move))
      (Stmt.movedAll move values) (Stmt.movedAll move lacking) levels := by
  induction around with
  | next first more => exact .next (first.moved move) (more.moved move)
  | behind first _ more =>
    have moved := first.moved move
    simp only [List.map_append, ← Hole.tokens_moved] at moved ⊢
    exact .behind moved more

/-! ## Moving to given places -/

/-- Places that are all different can be moved to any others. -/
theorem exists_move {places : List Position} (apart : places.Nodup) :
    ∀ {others : List Position}, others.length = places.length →
      ∃ move : Position → Position, places.map move = others := by
  induction places with
  | nil =>
    intro others length
    exact ⟨id, (List.length_eq_zero_iff.mp length).symm⟩
  | cons place places ih =>
    intro others length
    obtain ⟨other, others, rfl⟩ := List.exists_cons_of_length_eq_add_one length
    have absent := (List.nodup_cons.mp apart).1
    obtain ⟨move, same⟩ := ih (List.nodup_cons.mp apart).2 (Nat.succ.inj length)
    refine ⟨fun position => if position = place then other else move position, ?_⟩
    have behind : places.map (fun position => if position = place then other else move position) =
        places.map move := by
      apply List.map_congr_left
      intro position found
      rw [if_neg]
      rintro rfl
      exact absent found
    rw [List.map_cons, if_pos rfl, behind, same]

/-- The places of tokens that are all different can be moved to those of any other tokens. -/
theorem exists_move_tokens {tokens others : List Token}
    (apart : (tokens.map (·.position)).Nodup) (length : others.length = tokens.length) :
    ∃ move : Position → Position,
      (tokens.map (·.position)).map move = others.map (·.position) :=
  exists_move apart (by rw [List.length_map, List.length_map, length])

/-- Tokens with the lexemes of others, at the places that these are moved to, are the others
moved. -/
theorem Alike.moved {tokens others : List Token} (alike : Alike others tokens)
    (places : (tokens.map (·.position)).map move = others.map (·.position)) :
    tokens.map (Movable.moved move) = others := by
  induction tokens generalizing others with
  | nil => exact (List.map_eq_nil_iff.mp alike).symm
  | cons token tokens ih =>
    obtain ⟨other, others, rfl, lexeme, rest⟩ := List.map_eq_cons_iff.mp alike
    obtain ⟨here, behind⟩ := List.cons.inj places
    have moved : Movable.moved move token = other :=
      congr (congrArg Token.mk lexeme.symm) here
    rw [List.map_cons, moved, ih rest behind]

end Parser

end ExprLang
