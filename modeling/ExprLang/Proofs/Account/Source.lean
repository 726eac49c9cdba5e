import Mathlib.Data.List.Nodup
import ExprLang.Proofs.Account.Reading
import ExprLang.Proofs.Account.Run
import ExprLang.Proofs.Layout
import ExprLang.Proofs.Reading.Source

/-!
# The tree of a source and its tokens

The marks of the program that parsing gives stand on tokens of the source, in order
(`parse_accounts`): no node is invented, and none is read twice. Where there is no diagnostic, each
token of a name, a value, a keyword or an operator is under exactly one mark: none is lost.
-/

namespace ExprLang

/-! ## Tokens of a source -/

/-- The positions of the tokens of a source rise, up to the end. -/
theorem sourceStream_rising (source : String) :
    ((sourceStream source).toList.map (·.position)).Pairwise Position.Before := by
  have start : Scanner.Stands [] (Scanner.ofText source false) := ⟨rfl, rfl, rfl⟩
  obtain ⟨offsets, length, laid, last⟩ := (sourceStream_scans source).laid [] start
  have rising := laid.rising
  have tokens := List.map_snd_zip (Nat.le_of_eq length.symm)
  have positions := congrArg (List.map (·.position)) tokens
  rw [List.map_map] at positions
  rw [← last] at rising
  unfold TokenStream.toList
  rw [List.map_append, List.map_singleton, ← positions]
  exact rising

/-- The positions of the tokens of a source in front of its end rise. -/
theorem sourceTokens_rising (source : String) :
    ((sourceTokens source).map (·.position)).Pairwise Position.Before :=
  (sourceStream_rising source).sublist ((List.sublist_append_left _ _).map _)

/-- The tokens of a source stand on its lines. -/
theorem sourceTokens_within {source : String} {token : Token}
    (found : token ∈ sourceTokens source) : 1 ≤ token.position.line ∧
      token.position.line ≤ ((1 + source.toList.count '\n' : Nat) : Int) := by
  have start : Scanner.Stands [] (Scanner.ofText source false) := ⟨rfl, rfl, rfl⟩
  obtain ⟨offsets, length, laid, -⟩ := (sourceStream_scans source).laid [] start
  have tokens : (offsets.zip (sourceTokens source)).map (·.2) = sourceTokens source :=
    List.map_snd_zip (Nat.le_of_eq length.symm)
  rw [← tokens] at found
  obtain ⟨⟨offset, _⟩, member, rfl⟩ := List.mem_map.mp found
  have place := laid.place_of_mem _ member
  have inside := (List.take_sublist offset source.toList).count_le '\n'
  dsimp only at place ⊢
  rw [place]
  constructor
  · exact Int.ofNat_le.mpr (Nat.le_add_right 1 _)
  · exact Int.ofNat_le.mpr (Nat.add_le_add_left inside 1)

/-- The integers of a source are rows of digits. -/
theorem sourceTokens_digital {source : String} {token : Token}
    (found : token ∈ sourceTokens source) : token.Digital := by
  obtain ⟨text, same⟩ := (sourceStream_scans source).front token found
  intro integer
  have kind := congrArg Lexeme.kind same
  have digits := Lexeme.front_integer (kind.symm.trans integer)
  rwa [← same] at digits

/-- What a parser of a source looks at has rows of digits for integers, the end included. -/
theorem sourceStream_digital (source : String) (index : Nat) :
    ((sourceStream source).get index).Digital := by
  cases found : (sourceStream source).upcoming[index]? with
  | none =>
    have last : (sourceStream source).get index = (sourceStream source).ending := by
      simp [TokenStream.get, List.getD_eq_getElem?_getD, found]
    intro integer
    rw [last, (sourceStream_scans source).ending_kind] at integer
    exact absurd integer (by decide)
  | some token =>
    have here : (sourceStream source).get index = token := by
      simp [TokenStream.get, List.getD_eq_getElem?_getD, found]
    rw [here]
    exact sourceTokens_digital (List.mem_of_getElem? found)

/-- Of the tokens that a stream is looked at for, those in front of the end are its tokens. -/
theorem TokenStream.filter_get {stream : TokenStream} (ended : stream.ending.kind = .endOfInput)
    (solid : ∀ token ∈ stream.upcoming, token.kind ≠ .endOfInput) (count : Nat) :
    ((List.range count).map stream.get).filter (·.kind ≠ .endOfInput) =
      stream.upcoming.take count := by
  induction count with
  | zero => simp
  | succ count ih =>
    rw [List.range_succ, List.map_append, List.filter_append, ih, List.take_add_one]
    congr 1
    cases found : stream.upcoming[count]? with
    | none =>
      have last : stream.get count = stream.ending := by
        simp [get, List.getD_eq_getElem?_getD, found]
      simp [last, ended]
    | some token =>
      have here : stream.get count = token := by
        simp [get, List.getD_eq_getElem?_getD, found]
      have more := solid token (List.mem_of_getElem? found)
      simp [here, more]

/-! ## Marks on tokens -/

/-- Marks that stand on tokens are where these are. -/
theorem Stand.positions {marks : List Mark} {tokens : List Token} (stand : Stand marks tokens) :
    (marks.map (·.position)).Sublist (tokens.map (·.position)) := by
  obtain ⟨under, sublist, stands⟩ := stand
  have same : marks.map (·.position) = under.map (·.position) := by
    clear sublist
    induction stands with
    | nil => rfl
    | cons stands _ ih => rw [List.map_cons, List.map_cons, stands.place, ih]
  rw [same]
  exact sublist.map _

/-- Marks on what a parser of a source looks at stand on the tokens of the source. -/
theorem Stand.upcoming {marks : List Mark} {source : String} {count : Nat}
    (stand : Stand marks ((List.range count).map (sourceStream source).get)) :
    Stand marks (sourceTokens source) := by
  obtain ⟨under, sublist, stands⟩ := stand
  have solid : ∀ token ∈ under, token.kind ≠ .endOfInput := by
    clear sublist
    induction stands with
    | nil => exact nofun
    | cons stands _ ih =>
      intro token found
      rcases List.mem_cons.mp found with rfl | behind
      · exact stands.solid
      · exact ih token behind
  have kept : under.filter (·.kind ≠ .endOfInput) = under :=
    List.filter_eq_self.mpr fun token found => decide_eq_true (solid token found)
  have scans := sourceStream_scans source
  have inside := sublist.filter (·.kind ≠ .endOfInput)
  rw [kept, TokenStream.filter_get scans.ending_kind scans.upcoming_kind] at inside
  exact ⟨under, inside.trans (List.take_sublist _ _), stands⟩

namespace Parser

/-- The marks of the tree of a source stand on its tokens. -/
theorem parse_stand {source : String} (nonempty : source ≠ "") {parsed : Parsed}
    (ran : parse source = .ok parsed) : Stand parsed.program.marks (sourceTokens source) := by
  obtain ⟨found, last, loops, rfl⟩ := parse_loops nonempty ran
  have looped :=
    program_loop_eq (ofRoom_forward maxNesting) (State.ofText_outermost source).ended loops
  obtain ⟨tokens, spans, stand⟩ :=
    program_accounts (derive_accounts maxNesting) (ofRoom_forward maxNesting) looped
  have looked : tokens = (List.range tokens.length).map (sourceStream source).get := by
    refine List.ext_getElem (by simp) fun index inside _ => ?_
    rw [spans.along index inside, State.ofText_token]
    simp
  have digital : ∀ token ∈ tokens, token.Digital := by
    rw [looked]
    intro token found
    obtain ⟨index, -, rfl⟩ := List.mem_map.mp found
    exact sourceStream_digital source index
  have stands := stand digital
  rw [looked] at stands
  exact stands.upcoming

/-- The tree accounts for the tokens of its source. Its marks stand on tokens, in the order of
these and each on a token of its own, so that their positions rise. Where there is no diagnostic,
each token of a marked kind is where exactly one mark is. -/
theorem parse_accounts {source : String} (nonempty : source ≠ "") :
    ∃ parsed tokens ending, parse source = .ok parsed ∧
      tokenize source false = .ok (tokens ++ [ending]) ∧
      Stand parsed.program.marks tokens ∧
      (parsed.program.marks.map (·.position)).Pairwise Position.Before ∧
      (parsed.diagnostics = [] → ∀ token ∈ tokens, token.kind.isMarked = true →
        (parsed.program.marks.map (·.position)).count token.position = 1) := by
  have ran := parse_eq nonempty
  have stand := parse_stand nonempty ran
  have rising := (sourceTokens_rising source).sublist stand.positions
  refine ⟨_, _, _, ran, tokenize_eq nonempty, stand, rising, fun clean token found marked => ?_⟩
  have apart := rising.imp Position.Before.ne
  obtain ⟨levels, -, reads⟩ := parse_clean nonempty ran clean
  rcases reads.places token found marked with behind | here
  · exact absurd behind List.not_mem_nil
  · exact List.count_eq_one_of_mem apart here

/-- A source without a diagnostic, with parentheses that are under a mark and others that are
not. -/
theorem parse_accounts_clean :
    ∃ parsed tokens ending, parse "let x = fn(a) \x7b (a - 1) \x7d(-5);" = .ok parsed ∧
      tokenize "let x = fn(a) \x7b (a - 1) \x7d(-5);" false = .ok (tokens ++ [ending]) ∧
      Stand parsed.program.marks tokens ∧
      (parsed.program.marks.map (·.position)).Pairwise Position.Before ∧
      parsed.diagnostics = [] ∧ ∀ token ∈ tokens, token.kind.isMarked = true →
        (parsed.program.marks.map (·.position)).count token.position = 1 := by
  have nonempty : "let x = fn(a) \x7b (a - 1) \x7d(-5);" ≠ "" := by decide
  obtain ⟨parsed, tokens, ending, ran, scanned, stand, rising, once⟩ := parse_accounts nonempty
  have same := Except.ok.inj (ran.symm.trans (parse_eq nonempty))
  have clean : parsed.diagnostics = [] := by
    rw [same]
    decide +kernel
  exact ⟨parsed, tokens, ending, ran, scanned, stand, rising, clean, once clean⟩

end Parser

end ExprLang
