import ExprLang.Proofs.Chain.Basic
import ExprLang.Proofs.RoundTrip.Spelling

/-!
# The text of a chain

The text of a chain spells the lexemes of its pieces (`Chain.spelled`). The operators before an
operand touch each other and what is behind them, but no two of them read as one.
-/

namespace ExprLang

/-! ## Lexemes of pieces -/

/-- The lexeme of an atom. -/
def Atom.lexeme : Atom → Lexeme
  | .name word => .ofWord word
  | .integer digits => ⟨.integer, digits⟩
  | .boolean value => .ofWord (if value then "true" else "false")

/-- The lexemes of atoms with commas between. -/
def Atom.lexemesAll (atoms : List Atom) : List Lexeme :=
  Lexeme.commas (atoms.map fun atom => [atom.lexeme])

/-- The lexemes of a written piece. -/
def Piece.lexemes : Piece Atom → List Lexeme
  | .sign operator => [.front operator.toList]
  | .atom value => [value.lexeme]
  | .suffix arguments => .ofSingle '(' :: (Atom.lexemesAll arguments ++ [.ofSingle ')'])
  | .between operator => [.front operator.toList]

/-- The lexemes of a chain. -/
def Chain.lexemes (chain : Chain) : List Lexeme := chain.pieces.flatMap Piece.lexemes

/-! ## Atoms -/

/-- The text of an atom writes its lexeme. -/
theorem Atom.Proper.writes {atom : Atom} (proper : atom.Proper) :
    Writes atom.text [atom.lexeme] := by
  intro rest more apart behind
  cases atom with
  | name word => exact .word proper.1 proper.2.1 apart behind
  | integer digits => exact .number proper.1 proper.2.1 apart behind
  | boolean value =>
    cases value with
    | true => exact .reserved (by decide) apart behind
    | false => exact .reserved (by decide) apart behind

/-- An atom begins with a letter or a digit. -/
theorem Atom.text_head {atom : Atom} (proper : atom.Proper) (rest : List Char) :
    ∀ c ∈ (atom.text.toList ++ rest).head?, c ≠ '=' := by
  have plain : ∃ c, atom.text.toList.head? = some c ∧ (isLetter c = true ∨ isDigit c = true) := by
    cases atom with
    | name word =>
      obtain ⟨c, found, letter⟩ := Ident.Proper.begins proper
      exact ⟨c, found, .inl letter⟩
    | integer digits =>
      obtain ⟨c, behind, found⟩ := List.exists_cons_of_ne_nil proper.1
      refine ⟨c, congrArg List.head? found, .inr (proper.2.1 c ?_)⟩
      rw [found]
      exact List.mem_cons_self
    | boolean value =>
      cases value with
      | true => exact ⟨'t', rfl, by decide⟩
      | false => exact ⟨'f', rfl, by decide⟩
  obtain ⟨c, found, character⟩ := plain
  rw [List.head?_append, found]
  rintro _ ⟨⟩ rfl
  exact absurd character (by decide)

/-- Atoms with commas between write their lexemes with commas between. -/
theorem Atom.writesAll {atoms : List Atom} (proper : ∀ atom ∈ atoms, atom.Proper) :
    Writes (", ".intercalate (atoms.map Atom.text)) (Atom.lexemesAll atoms) := by
  refine Writes.commas ?_
  rw [List.forall₂_map_left_iff, List.forall₂_map_right_iff, List.forall₂_same]
  exact fun atom found => (proper atom found).writes

/-- Arguments in front of a spelled text. -/
theorem Atom.spelledAll {arguments : List Atom} (proper : ∀ atom ∈ arguments, atom.Proper)
    {rest : List Char} {more : List Lexeme} (behind : Spells rest more) :
    Spells ((Atom.textAll arguments).toList ++ rest)
      ((Piece.suffix arguments).lexemes ++ more) := by
  have text : (Atom.textAll arguments).toList ++ rest =
      '(' :: ((", ".intercalate (arguments.map Atom.text)).toList ++ ')' :: rest) := by
    simp [Atom.textAll]
  have lexemes : (Piece.suffix arguments).lexemes ++ more =
      .ofSingle '(' :: (Atom.lexemesAll arguments ++ .ofSingle ')' :: more) := by
    simp [Piece.lexemes]
  have closed : Spells (')' :: rest) (.ofSingle ')' :: more) := .sign (by decide) behind
  rw [text, lexemes]
  exact .sign (by decide) (Atom.writesAll proper (.cons (by decide) _) closed)

/-! ## Operands and chains -/

/-- Calls in front of a spelled text that goes on with no lexeme: the whole spells the arguments,
and goes on with no lexeme either. -/
theorem Atom.spelledCalls {suffixes : List (List Atom)}
    (proper : ∀ arguments ∈ suffixes, ∀ atom ∈ arguments, atom.Proper) {rest : List Char}
    {more : List Lexeme} (apart : Apart rest) (behind : Spells rest more) :
    Apart ((String.join (suffixes.map Atom.textAll)).toList ++ rest) ∧
      Spells ((String.join (suffixes.map Atom.textAll)).toList ++ rest)
        ((suffixes.map Piece.suffix).flatMap Piece.lexemes ++ more) := by
  induction suffixes with
  | nil => exact ⟨by simpa using apart, by simpa using behind⟩
  | cons arguments suffixes ih =>
    obtain ⟨first, others⟩ := List.forall_mem_cons.mp proper
    have onward := Atom.spelledAll first (ih others).2
    rw [List.map_cons, List.map_cons, String.join_cons, String.toList_append, List.flatMap_cons,
      List.append_assoc, List.append_assoc]
    refine ⟨?_, onward⟩
    simp only [Atom.textAll, String.toList_append]
    exact .cons (by decide) _

/-- Operators before an operand in front of a spelled text without an equality sign. -/
theorem Piece.spelledSigns {signs : List String} (listed : ∀ sign ∈ signs, sign ∈ ["-", "!"])
    {rest : List Char} {more : List Lexeme} (apart : ∀ c ∈ rest.head?, c ≠ '=')
    (behind : Spells rest more) :
    (∀ c ∈ ((String.join signs).toList ++ rest).head?, c ≠ '=') ∧
      Spells ((String.join signs).toList ++ rest)
        ((signs.map Piece.sign).flatMap Piece.lexemes ++ more) := by
  induction signs with
  | nil => exact ⟨by simpa using apart, by simpa using behind⟩
  | cons sign signs ih =>
    obtain ⟨first, others⟩ := List.forall_mem_cons.mp listed
    obtain ⟨apart_all, spells⟩ := ih others
    rw [String.join_cons, String.toList_append, List.append_assoc]
    refine ⟨?_, .operator (.inl first) apart_all spells⟩
    have heads : ∀ sign ∈ ["-", "!"],
        sign.toList.head? = some '-' ∨ sign.toList.head? = some '!' := by decide
    rw [List.head?_append]
    rcases heads sign first with found | found
    · rw [found]
      rintro _ ⟨⟩
      decide
    · rw [found]
      rintro _ ⟨⟩
      decide

/-- An operand in front of a spelled text. -/
theorem Operand.spelled {operand : Operand} (proper : operand.Proper) {rest : List Char}
    {more : List Lexeme} (apart : Apart rest) (behind : Spells rest more) :
    Spells (operand.text.toList ++ rest) (operand.pieces.flatMap Piece.lexemes ++ more) := by
  obtain ⟨signs, atom, suffixes⟩ := operand
  obtain ⟨listed, -, proper_atom, proper_suffixes⟩ := proper
  obtain ⟨apart_calls, calls⟩ := Atom.spelledCalls proper_suffixes apart behind
  have called := proper_atom.writes apart_calls calls
  have whole := (Piece.spelledSigns listed (Atom.text_head proper_atom _) called).2
  have text : (Operand.mk signs atom suffixes).text.toList ++ rest = (String.join signs).toList ++
      (atom.text.toList ++ ((String.join (suffixes.map Atom.textAll)).toList ++ rest)) := by
    simp [Operand.text]
  have lexemes : (Operand.mk signs atom suffixes).pieces.flatMap Piece.lexemes ++ more =
      (signs.map Piece.sign).flatMap Piece.lexemes ++ atom.lexeme ::
        ((suffixes.map Piece.suffix).flatMap Piece.lexemes ++ more) := by
    simp [Operand.pieces, Piece.lexemes]
  rw [text, lexemes]
  exact whole

/-- The text of a chain spells the lexemes of the chain. -/
theorem Chain.spelled {chain : Chain} (proper : chain.Proper) :
    Spells chain.text.toList chain.lexemes := by
  obtain ⟨first, others⟩ := chain
  obtain ⟨proper_first, proper_others⟩ := proper
  have behind : ∀ others : List (String × Operand),
      (∀ entry ∈ others, entry.1 ∈ ["+", "-", "*", "/", "<", ">", "==", "!="] ∧ entry.2.Proper) →
      Apart ((others.flatMap fun entry => [entry.1, entry.2.text]).flatMap
        fun text => " ".toList ++ text.toList) ∧
      Spells ((others.flatMap fun entry => [entry.1, entry.2.text]).flatMap
          fun text => " ".toList ++ text.toList)
        ((others.flatMap fun entry =>
          .between entry.1 :: entry.2.pieces).flatMap Piece.lexemes) := by
    intro others
    induction others with
    | nil => exact fun _ => ⟨nofun, .done⟩
    | cons entry others ih =>
      intro proper
      obtain ⟨operator, operand⟩ := entry
      obtain ⟨⟨listed, proper_operand⟩, proper_behind⟩ := List.forall_mem_cons.mp proper
      obtain ⟨apart, spells⟩ := ih proper_behind
      have onward := Operand.spelled proper_operand apart spells
      have text : (((operator, operand) :: others).flatMap
          fun entry => [entry.1, entry.2.text]).flatMap
            (fun text => " ".toList ++ text.toList) = ' ' :: (operator.toList ++ ' ' ::
              (operand.text.toList ++ (others.flatMap
                fun entry => [entry.1, entry.2.text]).flatMap
                  fun text => " ".toList ++ text.toList)) := by
        simp
      have lexemes : (((operator, operand) :: others).flatMap fun entry =>
          Piece.between entry.1 :: entry.2.pieces).flatMap Piece.lexemes =
            .front operator.toList :: (operand.pieces.flatMap Piece.lexemes ++
              (others.flatMap fun entry =>
                Piece.between entry.1 :: entry.2.pieces).flatMap Piece.lexemes) := by
        simp [Piece.lexemes]
      rw [text, lexemes]
      refine ⟨.cons (by decide) _, .space (.operator (.inr listed) ?_ (.space onward))⟩
      rintro _ ⟨⟩
      decide
  obtain ⟨apart, spells⟩ := behind others proper_others
  have whole := Operand.spelled proper_first apart spells
  unfold Chain.text Chain.lexemes Chain.pieces
  rw [toList_intercalate_cons, List.flatMap_append]
  exact whole

example : (Chain.mk ⟨["-", "!"], .name "a", [[.integer "1", .name "b"], [.boolean true]]⟩
    [("==", ⟨[], .integer "007", []⟩)]).text = "-!a(1, b)(true) == 007" := by decide +kernel

end ExprLang
