import ExprLang.Token

/-!
# Token streams

A token stream never runs dry: behind its last token the end-of-input token follows for
ever. Whoever takes tokens for their meaning does not see line breaks.
-/

namespace ExprLang

/-- Finitely many tokens and the end-of-input token that follows them for ever. -/
structure TokenStream where
  /-- The tokens before the end. -/
  upcoming : List Token
  /-- The token that ends the stream. -/
  ending : Token
deriving DecidableEq, Repr

namespace TokenStream

/-- The tokens, ending with one end-of-input token. -/
def toList (stream : TokenStream) : List Token := stream.upcoming ++ [stream.ending]

/-- The token after a number of others, line breaks counted. -/
def get (stream : TokenStream) (index : Nat) : Token :=
  stream.upcoming.getD index stream.ending

/-- The tokens before the end that are no line breaks. -/
def visible (stream : TokenStream) : List Token :=
  stream.upcoming.filter (·.kind ≠ .lineBreak)

/-- Take the next token that is no line break from a list of tokens before the end. -/
def takeFrom (ending : Token) : List Token → Token × TokenStream
  | [] => (ending, ⟨[], ending⟩)
  | token :: rest =>
    if token.kind = .lineBreak then takeFrom ending rest else (token, ⟨rest, ending⟩)

/-- Take the next token that is no line break. -/
def take (stream : TokenStream) : Token × TokenStream :=
  takeFrom stream.ending stream.upcoming

/-- What is taken is the first visible token, and the end once there is none. -/
theorem take_fst (stream : TokenStream) : stream.take.1 = stream.visible.headD stream.ending := by
  unfold take visible
  induction stream.upcoming with
  | nil => rfl
  | cons token rest ih =>
    by_cases hidden : token.kind = .lineBreak <;> simp [takeFrom, hidden, ih]

/-- What is left is visible behind the token that was taken. -/
theorem take_snd_visible (stream : TokenStream) : stream.take.2.visible = stream.visible.tail := by
  unfold take visible
  induction stream.upcoming with
  | nil => rfl
  | cons token rest ih =>
    by_cases hidden : token.kind = .lineBreak
    · simpa [takeFrom, hidden] using ih
    · simp [takeFrom, hidden]

/-- The end of a stream stays. -/
theorem take_snd_ending (stream : TokenStream) : stream.take.2.ending = stream.ending := by
  unfold take
  induction stream.upcoming with
  | nil => rfl
  | cons token rest ih =>
    by_cases hidden : token.kind = .lineBreak <;> simp [takeFrom, hidden, ih]

end TokenStream

end ExprLang
