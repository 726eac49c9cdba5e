import ExprLang.Proofs.Reading.Source
import ExprLang.Proofs.Relocation.Grammar

/-!
# Other spacing

Blanks and line breaks move the tokens of a source and change nothing else about them. Every such
source is compared with one stream that depends on the lexemes only, in which a token stands at its
own number (`TokenStream.numbered`). The only rule that looks at lines skips tokens behind a fault,
and by then the first diagnostic is recorded. So sources with the same lexemes are both clean, with
the same trees, or have the same first diagnostic at the same token (`parse_respaced`).
-/

namespace ExprLang

open Movable (moved)

namespace TokenStream

/-! ## Numbered tokens -/

/-- The same lexemes, each at a position that is its number. -/
def numbered (stream : TokenStream) : TokenStream where
  upcoming := (stream.upcoming.map (·.toLexeme)).mapIdx fun index lexeme => ⟨lexeme, ⟨index, 0⟩⟩
  ending := ⟨stream.ending.toLexeme, ⟨stream.upcoming.length, 0⟩⟩

/-- The position of the token with a number. -/
def place (stream : TokenStream) (number : Position) : Position :=
  (stream.get number.line.toNat).position

/-- A token of a numbered stream is the token of the stream, away from its place. -/
theorem get_numbered (stream : TokenStream) (index : Nat) :
    stream.get index = moved stream.place (stream.numbered.get index) := by
  by_cases inside : index < stream.upcoming.length
  · have found : stream.get index = stream.upcoming[index] := by
      simp [get, List.getD_eq_getElem?_getD, inside]
    have same : stream.numbered.get index = ⟨stream.upcoming[index].toLexeme, ⟨index, 0⟩⟩ := by
      simp [get, numbered, List.getD_eq_getElem?_getD, inside]
    rw [same]
    change _ = (⟨_, (stream.get index).position⟩ : Token)
    rw [found]
  · have beyond : ∀ index, ¬ index < stream.upcoming.length → stream.get index = stream.ending := by
      intro index outside
      simp [get, List.getD_eq_getElem?_getD, List.getElem?_eq_none (Nat.le_of_not_lt outside)]
    have same : stream.numbered.get index =
        ⟨stream.ending.toLexeme, ⟨stream.upcoming.length, 0⟩⟩ := by
      simp [get, numbered, List.getD_eq_getElem?_getD, inside]
    rw [same, beyond index inside]
    change _ = (⟨_, (stream.get stream.upcoming.length).position⟩ : Token)
    rw [beyond _ (Nat.lt_irrefl _)]

/-- A numbered stream depends on the lexemes only. -/
theorem numbered_congr {left right : TokenStream}
    (alike : left.toList.map (·.toLexeme) = right.toList.map (·.toLexeme)) :
    left.numbered = right.numbered := by
  have split : left.upcoming.map (·.toLexeme) = right.upcoming.map (·.toLexeme) ∧
      left.ending.toLexeme = right.ending.toLexeme := by
    simpa [toList] using alike
  have lengths := congrArg List.length split.1
  simp only [List.length_map] at lengths
  simp only [numbered, split, lengths]

end TokenStream

namespace Parser

/-! ## A source and its numbered stream -/

/-- No token of a numbered stream of a source is hidden. -/
theorem sourceStream_numbered_visible (source : String) :
    (sourceStream source).numbered.visible = (sourceStream source).numbered.upcoming := by
  have shown : ∀ token ∈ (sourceStream source).upcoming, token.kind ≠ .lineBreak := by
    intro token found
    have kept : token ∈ (Scanner.ofText source true).drain.1.visible := by
      rw [visible_eq_sourceTokens]
      exact found
    simpa using (List.mem_filter.mp kept).2
  apply List.filter_eq_self.mpr
  intro token found
  obtain ⟨index, inside, rfl⟩ := List.mem_mapIdx.mp found
  have known : index < (sourceStream source).upcoming.length := by simpa using inside
  simpa using shown _ (List.getElem_mem known)

/-- A source mirrors its numbered stream. -/
theorem State.ofText_mirrors (source : String) :
    Mirrors (sourceStream source).place (State.ofStream (sourceStream source).numbered)
      (State.ofText source) := by
  have ended : (sourceStream source).ending.kind = .endOfInput :=
    (sourceStream_scans source).ending_kind
  have outermost : (State.ofStream (sourceStream source).numbered).Outermost :=
    State.ofStream_outermost ended
  have image_outermost := State.ofText_outermost source
  refine ⟨fun index => ?_, ?_, ?_, ?_, outermost.ended, image_outermost.ended⟩
  · rw [State.ofText_token, State.ofStream_token, sourceStream_numbered_visible]
    exact (sourceStream source).get_numbered index
  · rw [outermost.depth, image_outermost.depth]
  · rw [outermost.nesting, image_outermost.nesting]
  · have image_none : (State.ofText source).diagnostics = #[] := State.ofStream_diagnostics _
    rw [State.ofStream_diagnostics, image_none]
    exact (moved_empty _).symm

/-! ## Two runs up to the first diagnostic -/

/-- The relocation from a numbered stream. Two runs are lost once they have the same first
diagnostic. -/
def respaced (stream : TokenStream) : Relocation where
  move := stream.place
  lost left right :=
    ∃ first, left.head? = some first ∧ right.head? = some (moved stream.place first)
  stays := by
    have kept : ∀ {diagnostics more : List Diagnostic} {first : Diagnostic},
        diagnostics.head? = some first → diagnostics <+: more → more.head? = some first := by
      intro diagnostics more first found added
      obtain ⟨rest, rfl⟩ := added
      rw [List.head?_append, found]
      rfl
    rintro left right left' right' ⟨first, found, image_found⟩ added image_added
    exact ⟨first, kept found added, kept image_found image_added⟩

/-- Mirrored states with a diagnostic have the same first one. -/
theorem State.Mirrors.lost {stream : TokenStream} {state image : State}
    (mirrors : Mirrors stream.place state image) (some_recorded : state.diagnostics ≠ #[]) :
    (respaced stream).lost state.diagnostics.toList image.diagnostics.toList := by
  have diagnostics : image.diagnostics.toList =
      state.diagnostics.toList.map (moved stream.place) := by
    rw [mirrors.diagnostics]
    exact Array.toList_map
  cases recorded : state.diagnostics.toList with
  | nil => exact absurd (Array.toList_eq_nil_iff.mp recorded) some_recorded
  | cons first rest =>
    rw [diagnostics, recorded]
    exact ⟨first, rfl, rfl⟩

/-- Behind a fault the first diagnostic is recorded, whatever line the next statement is on. -/
theorem recover_respaced (stream : TokenStream) : Rule.Natural (respaced stream) recover := by
  refine recover_natural_of fun state image mirrors some_recorded => ?_
  have skipped := framed_closed.skipStatement_holds state
  have image_skipped := framed_closed.skipStatement_holds image
  rw [← Rule.left_run] at skipped image_skipped
  exact .lost ((respaced stream).stays (mirrors.lost some_recorded) skipped.diagnostics
    image_skipped.diagnostics)

/-- The first diagnostic of a source is that of its numbered stream. Without one, the trees are
those of the numbered stream but for their positions. -/
theorem parse_numbered {source : String} (nonempty : source ≠ "") {parsed : Parsed}
    (ran : parse source = .ok parsed) :
    ∃ found last,
      Rule.repeatWhile (currentIsNot .endOfInput) (nextStatement (Inner.ofRoom maxNesting)) #[]
        (State.ofStream (sourceStream source).numbered) = .ok found last ∧
      parsed.diagnostics.head? =
        last.diagnostics.toList.head?.map (moved (sourceStream source).place) ∧
      (parsed.diagnostics = [] →
        parsed.program.unplaced = (⟨found.toList⟩ : Program).unplaced) := by
  have mirrors := State.ofText_mirrors source
  have framed := ofRoom_framed maxNesting
  have forward := ofRoom_forward maxNesting
  have outermost : (State.ofStream (sourceStream source).numbered).Outermost :=
    State.ofStream_outermost (sourceStream_scans source).ending_kind
  obtain ⟨found, last, looped, -⟩ := program_loops framed forward outermost
  obtain ⟨image_found, image_last, loops, rfl⟩ := parse_loops nonempty ran
  have image_looped := program_loop_eq forward mirrors.image_ended loops
  have agreed := program_agree (recover_respaced (sourceStream source)) maxNesting mirrors
  rw [image_looped, looped] at agreed
  clear image_looped
  refine ⟨found, last, looped, ?_, ?_⟩
  · cases agreed with
    | value _ mirrors =>
      dsimp only
      rw [mirrors.diagnostics]
      exact (congrArg List.head? Array.toList_map).trans List.head?_map
    | lost lost =>
      obtain ⟨first, recorded, image_recorded⟩ := lost
      exact image_recorded.trans (congrArg (Option.map _) recorded).symm
  · intro clean
    cases agreed with
    | value _ mirrors =>
      have trees : (moved (respaced (sourceStream source)).move found).toList =
          Stmt.movedAll (sourceStream source).place found.toList := by
        rw [Stmt.movedAll_eq]
        exact Array.toList_map
      unfold Program.unplaced
      dsimp only
      rw [trees, Stmt.unplacedAll_movedAll]
    | lost lost =>
      obtain ⟨first, -, image_recorded⟩ := lost
      have recorded : image_last.diagnostics.toList.head? = some _ := image_recorded
      rw [show image_last.diagnostics.toList = [] from clean] at recorded
      cases recorded

/-- Two sources with these tokens have the same outcome: both are read without a diagnostic, with
the same program but for positions, or both have a diagnostic, and the first ones have the same
message and stand at tokens with the same number. -/
inductive SameOutcome (tokens tokens' : List Token) (parsed parsed' : Parsed) : Prop where
  /-- Both sources are read without a diagnostic. -/
  | clean (none_left : parsed.diagnostics = []) (none_right : parsed'.diagnostics = [])
      (same : parsed.program.same parsed'.program = true)
  /-- Both sources have a diagnostic. -/
  | faulty {first first' : Diagnostic} {rest rest' : List Diagnostic} {index : Nat}
      {token token' : Token} (left : parsed.diagnostics = first :: rest)
      (right : parsed'.diagnostics = first' :: rest') (message : first.message = first'.message)
      (at_left : tokens[index]? = some token) (place_left : first.position = token.position)
      (at_right : tokens'[index]? = some token') (place_right : first'.position = token'.position)

/-- Spacing does not decide the outcome: two sources with the same lexemes have the same one. -/
theorem parse_respaced {left right : String} {tokens tokens' : List Token}
    (scanned : tokenize left false = .ok tokens) (scanned' : tokenize right false = .ok tokens')
    (alike : tokens.map (·.toLexeme) = tokens'.map (·.toLexeme)) :
    ∃ parsed parsed', parse left = .ok parsed ∧ parse right = .ok parsed' ∧
      SameOutcome tokens tokens' parsed parsed' := by
  obtain ⟨nonempty, rfl⟩ := tokenize_sourceStream scanned
  obtain ⟨nonempty', rfl⟩ := tokenize_sourceStream scanned'
  have ran := parse_eq nonempty
  have ran' := parse_eq nonempty'
  refine ⟨_, _, ran, ran', ?_⟩
  obtain ⟨found, last, looped, heads, trees⟩ := parse_numbered nonempty ran
  obtain ⟨found', last', looped', heads', trees'⟩ := parse_numbered nonempty' ran'
  -- Both sources are compared with one run, for it depends on the lexemes only.
  rw [TokenStream.numbered_congr alike, looped'] at looped
  obtain ⟨rfl, rfl⟩ := EStateM.Result.ok.inj looped
  cases recorded : last'.diagnostics.toList with
  | nil =>
    rw [recorded] at heads heads'
    have clean := List.head?_eq_none_iff.mp heads
    have clean' := List.head?_eq_none_iff.mp heads'
    have same := (trees clean).trans (trees' clean').symm
    exact .clean clean clean' ((Program.same_iff _ _).mpr same)
  | cons first more =>
    rw [recorded] at heads heads'
    obtain ⟨rest, split⟩ := List.head?_eq_some_iff.mp heads
    obtain ⟨rest', split'⟩ := List.head?_eq_some_iff.mp heads'
    have length : (sourceStream left).upcoming.length = (sourceStream right).upcoming.length := by
      have lengths := congrArg List.length alike
      simpa [TokenStream.toList] using lengths
    have here := (sourceStream left).toList_getElem? first.position.line.toNat
    have here' := (sourceStream right).toList_getElem? first.position.line.toNat
    rw [← length] at here'
    exact .faulty split split' rfl here rfl here' rfl

/-- A binding without its sign, on one line and on three. Behind the first diagnostic the two runs
part, for in the second source the next number begins a line. -/
theorem parse_respaced_parted :
    ∃ tokens tokens', tokenize "let x 5 6;" false = .ok tokens ∧
      tokenize "let x\n5\n6;" false = .ok tokens' ∧
      tokens.map (·.toLexeme) = tokens'.map (·.toLexeme) ∧
      ∃ parsed parsed', parse "let x 5 6;" = .ok parsed ∧ parse "let x\n5\n6;" = .ok parsed' ∧
        SameOutcome tokens tokens' parsed parsed' := by
  have scanned : tokenize "let x 5 6;" false = .ok
      [⟨⟨.letWord, "let"⟩, ⟨1, 1⟩⟩, ⟨⟨.identifier, "x"⟩, ⟨1, 5⟩⟩, ⟨⟨.integer, "5"⟩, ⟨1, 7⟩⟩,
        ⟨⟨.integer, "6"⟩, ⟨1, 9⟩⟩, ⟨⟨.semicolon, ";"⟩, ⟨1, 10⟩⟩,
        ⟨⟨.endOfInput, ""⟩, ⟨1, 11⟩⟩] := rfl
  have scanned' : tokenize "let x\n5\n6;" false = .ok
      [⟨⟨.letWord, "let"⟩, ⟨1, 1⟩⟩, ⟨⟨.identifier, "x"⟩, ⟨1, 5⟩⟩, ⟨⟨.integer, "5"⟩, ⟨2, 1⟩⟩,
        ⟨⟨.integer, "6"⟩, ⟨3, 1⟩⟩, ⟨⟨.semicolon, ";"⟩, ⟨3, 2⟩⟩, ⟨⟨.endOfInput, ""⟩, ⟨3, 3⟩⟩] := rfl
  exact ⟨_, _, scanned, scanned', rfl, parse_respaced scanned scanned' rfl⟩

end Parser

end ExprLang
