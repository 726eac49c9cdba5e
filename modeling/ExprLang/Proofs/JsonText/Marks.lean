import ExprLang.Proofs.JsonText.Literal
import ExprLang.Proofs.RoundTrip.Spelling

/-!
# Marks of a JSON text

A JSON text is a row of marks with blanks between: signs, text literals and words. It is read
character by character (`Scanning.step`). The text of a value has the marks of the value, with every
indent the same ones (`marks?_writeAt`).
-/

namespace ExprLang

namespace Json

/-- What a JSON text is made of apart from blanks. -/
inductive Mark where
  /-- A bracket, a comma or a colon. -/
  | sign (c : Char)
  /-- A text literal. -/
  | text (value : String)
  /-- A name of a value, or a number. -/
  | word (letters : List Char)

/-- The characters that are marks on their own. -/
def signs : List Char := ['[', ']', '\x7b', '\x7d', ',', ':']

/-- The characters between marks. -/
def isBlank (c : Char) : Bool := c = ' ' || c = '\n' || c = '\r' || c = '\t'

/-- The characters of words. -/
def isPlain (c : Char) : Bool := !isBlank c && c != '"' && !signs.contains c

/-! ## Reading marks -/

/-- The text of a literal that a character ends. -/
def Literal.text? : Literal → Char → Option String
  | .plain units, c => if c = '"' then (ofUnits? units).map String.ofList else none
  | _, _ => none

/-- Where the reading of a text stands. -/
inductive Scanning where
  /-- Between two marks. -/
  | between
  /-- Behind the first characters of a word. -/
  | word (letters : List Char)
  /-- Behind the first characters of a text literal. -/
  | inside (literal : Literal)

namespace Scanning

/-- What a character is between two marks. -/
def start (c : Char) : List Mark × Scanning :=
  if isBlank c then ([], .between)
  else if c = '"' then ([], .inside (.plain []))
  else if signs.contains c then ([.sign c], .between)
  else ([], .word [c])

/-- The marks that a character completes, and where reading stands behind it. -/
def step : Scanning → Char → Option (List Mark × Scanning)
  | .between, c => some (start c)
  | .word letters, c =>
    if isPlain c then some ([], .word (letters ++ [c]))
    else some (.word letters :: (start c).1, (start c).2)
  | .inside literal, c =>
    match literal.step c with
    | some literal => some ([], .inside literal)
    | none => (literal.text? c).map fun text => ([.text text], .between)

/-- The marks that the end of the text completes. -/
def finish : Scanning → Option (List Mark)
  | .between => some []
  | .word letters => some [.word letters]
  | .inside _ => none

/-- The marks of the rest of a text. -/
def run : Scanning → List Char → Option (List Mark)
  | scanning, [] => scanning.finish
  | scanning, c :: rest =>
    (scanning.step c).bind fun next => (next.2.run rest).map (next.1 ++ ·)

/-- A character completes some marks, and the others are those of the rest. -/
theorem run_cons {scanning next : Scanning} {c : Char} {marks : List Mark}
    (step : scanning.step c = some (marks, next)) (rest : List Char) :
    scanning.run (c :: rest) = (next.run rest).map (marks ++ ·) := by
  rw [run, step, Option.bind_some]

/-- Characters of a literal are read one by one. -/
theorem run_inside {literal literal' : Literal} {text : List Char}
    (steps : literal.steps text = some literal') (rest : List Char) :
    (inside literal).run (text ++ rest) = (inside literal').run rest := by
  induction text generalizing literal with
  | nil =>
    obtain rfl : literal = literal' := Option.some.inj steps
    rfl
  | cons c text ih =>
    cases next : literal.step c with
    | none => simp [Literal.steps, next] at steps
    | some between =>
      have onward : between.steps text = some literal' := by
        simpa [Literal.steps, next] using steps
      have first : (inside literal).step c = some ([], .inside between) := by rw [step, next]
      rw [List.cons_append, run_cons first, ih onward]
      exact Option.map_id'

/-- Characters of a word are read one by one. -/
theorem run_word (letters : List Char) {text : List Char}
    (all_plain : ∀ c ∈ text, isPlain c = true) (rest : List Char) :
    (word letters).run (text ++ rest) = (word (letters ++ text)).run rest := by
  induction text generalizing letters with
  | nil => rw [List.nil_append, List.append_nil]
  | cons c text ih =>
    obtain ⟨first, others⟩ := List.forall_mem_cons.mp all_plain
    have taken : (word letters).step c = some ([], .word (letters ++ [c])) := if_pos first
    rw [List.cons_append, run_cons taken, ih _ others, List.append_assoc]
    exact Option.map_id'

end Scanning

/-- The marks of a text. -/
def marks? (text : List Char) : Option (List Mark) := Scanning.between.run text

/-- A text that goes on with no word. -/
def Stops (text : List Char) : Prop := ∀ c ∈ text.head?, isPlain c = false

/-- A character that goes on with no word. -/
theorem Stops.cons {c : Char} (other : isPlain c = false) (rest : List Char) :
    Stops (c :: rest) := by
  rintro _ ⟨⟩
  exact other

section Pieces

variable {rest : List Char} {more : List Mark}

/-- A blank in front of a text is no mark. -/
theorem marks?_blank {c : Char} (blank : isBlank c = true) (behind : marks? rest = some more) :
    marks? (c :: rest) = some more := by
  have passed : Scanning.between.step c = some ([], .between) := by
    rw [Scanning.step, Scanning.start, if_pos blank]
  unfold marks? at behind ⊢
  rw [Scanning.run_cons passed, behind]
  rfl

/-- Blanks in front of a text are no marks. -/
theorem marks?_blanks {text : List Char} (blanks : ∀ c ∈ text, isBlank c = true)
    (behind : marks? rest = some more) : marks? (text ++ rest) = some more := by
  induction text with
  | nil => exact behind
  | cons c text ih =>
    obtain ⟨first, others⟩ := List.forall_mem_cons.mp blanks
    exact marks?_blank first (ih others)

/-- A sign in front of a text. -/
theorem marks?_sign {c : Char} (listed : c ∈ signs) (behind : marks? rest = some more) :
    marks? (c :: rest) = some (.sign c :: more) := by
  have marked : ∀ c ∈ signs, isBlank c = false ∧ c ≠ '"' := by simp [signs, isBlank]
  obtain ⟨solid, other⟩ := marked c listed
  have taken : Scanning.between.step c = some ([.sign c], .between) := by
    simp [Scanning.step, Scanning.start, solid, other, listed]
  unfold marks? at behind ⊢
  rw [Scanning.run_cons taken, behind]
  rfl

/-- A word in front of a text that does not go on with it. -/
theorem marks?_word {word : List Char} (some_letter : word ≠ [])
    (all_plain : ∀ c ∈ word, isPlain c = true) (stops : Stops rest)
    (behind : marks? rest = some more) : marks? (word ++ rest) = some (.word word :: more) := by
  obtain ⟨c, letters, rfl⟩ := List.exists_cons_of_ne_nil some_letter
  obtain ⟨first, others⟩ := List.forall_mem_cons.mp all_plain
  have begins : Scanning.between.step c = some ([], .word [c]) := by
    simp only [isPlain, Bool.and_eq_true, Bool.not_eq_true', bne_iff_ne] at first
    obtain ⟨⟨solid, other⟩, unsigned⟩ := first
    rw [Scanning.step, Scanning.start, solid, if_neg Bool.false_ne_true, if_neg other, unsigned,
      if_neg Bool.false_ne_true]
  have ends : (Scanning.word (c :: letters)).run rest = some (.word (c :: letters) :: more) := by
    cases rest with
    | nil =>
      have none_left : [] = more := Option.some.inj behind
      rw [← none_left]
      rfl
    | cons d rest =>
      have completed : (Scanning.word (c :: letters)).step d =
          some (.word (c :: letters) :: (Scanning.start d).1, (Scanning.start d).2) := by
        rw [Scanning.step, stops d rfl, if_neg Bool.false_ne_true]
      have alone : Scanning.between.step d =
          some ((Scanning.start d).1, (Scanning.start d).2) := rfl
      rw [marks?, Scanning.run_cons alone] at behind
      obtain ⟨marks, ran, same⟩ := Option.map_eq_some_iff.mp behind
      rw [Scanning.run_cons completed, ran, Option.map_some, List.cons_append, same]
  unfold marks?
  rw [List.cons_append, Scanning.run_cons begins, Scanning.run_word [c] others,
    List.singleton_append, ends]
  rfl

/-- A text literal in front of a text. -/
theorem marks?_quoted (text : String) (behind : marks? rest = some more) :
    marks? ((quoted text).toList ++ rest) = some (.text text :: more) := by
  have whole : (quoted text).toList ++ rest =
      '"' :: (text.toList.flatMap escaped ++ '"' :: rest) := by simp [quoted]
  have begins : Scanning.between.step '"' = some ([], .inside (.plain [])) := rfl
  have inside := Scanning.run_inside (Literal.steps_text [] text.toList) ('"' :: rest)
  have units : (Literal.plain (text.toList.flatMap unitsOf)).text? '"' = some text := by
    rw [Literal.text?, if_pos rfl, ofUnits?_units, Option.map_some, String.ofList_toList]
  have ends : (Scanning.inside (.plain (text.toList.flatMap unitsOf))).step '"' =
      some ([.text text], .between) := by
    have closing : (Literal.plain (text.toList.flatMap unitsOf)).step '"' = none := by
      rw [Literal.step, if_pos rfl]
    rw [Scanning.step, closing]
    simp only [units, Option.map_some]
  unfold marks? at behind ⊢
  rw [whole, Scanning.run_cons begins, inside, List.nil_append, Scanning.run_cons ends, behind]
  rfl

end Pieces

/-! ## Marks of a value -/

/-- Groups of marks with commas between. -/
def Mark.commas : List (List Mark) → List Mark
  | [] => []
  | first :: others => first ++ others.flatMap (.sign ',' :: ·)

mutual

/-- The marks of a value. -/
def marks : Json → List Mark
  | null => [.word ['n', 'u', 'l', 'l']]
  | bool true => [.word ['t', 'r', 'u', 'e']]
  | bool false => [.word ['f', 'a', 'l', 's', 'e']]
  | number value => [.word (toString value).toList]
  | text value => [.text value]
  | list items => .sign '[' :: (Mark.commas (itemMarks items) ++ [.sign ']'])
  | object fields => .sign '\x7b' :: (Mark.commas (fieldMarks fields) ++ [.sign '\x7d'])

/-- The marks of each item of a list. -/
def itemMarks : List Json → List (List Mark)
  | [] => []
  | item :: rest => item.marks :: itemMarks rest

/-- The marks of each field of an object. -/
def fieldMarks : List (String × Json) → List (List Mark)
  | [] => []
  | (key, value) :: rest => (.text key :: .sign ':' :: value.marks) :: fieldMarks rest

end

/-- A text has some marks in front of every text that does not go on with a word. -/
def Shows (text : String) (marks : List Mark) : Prop :=
  ∀ {rest : List Char} {more : List Mark}, Stops rest → marks? rest = some more →
    marks? (text.toList ++ rest) = some (marks ++ more)

/-- A line break with an indent is blank. -/
theorem lineBreak_blank (level : Nat) (indent : Option Int) :
    ∀ c ∈ (lineBreak level indent).toList, isBlank c = true := by
  cases indent with
  | none => nofun
  | some width =>
    intro c found
    simp only [lineBreak, String.toList_ofList, List.mem_cons, List.mem_replicate] at found
    rcases found with rfl | ⟨-, rfl⟩
    · rfl
    · rfl

/-- What separates two items is a comma with blanks behind it. -/
theorem toList_separator (level : Nat) (indent : Option Int) :
    ∃ blanks, (separator level indent).toList = ',' :: blanks ∧
      ∀ c ∈ blanks, isBlank c = true := by
  cases indent with
  | none => exact ⟨[' '], by simp [separator], List.forall_mem_singleton.mpr (by decide)⟩
  | some width =>
    refine ⟨(lineBreak level (some width)).toList, ?_, lineBreak_blank level (some width)⟩
    simp [separator]

/-- A text with a blank or nothing in front goes on with no word when it does not itself. -/
theorem Stops.behind {text rest : List Char} (blanks : ∀ c ∈ text, isBlank c = true)
    (stops : Stops rest) : Stops (text ++ rest) := by
  cases text with
  | nil => exact stops
  | cons c text =>
    refine .cons ?_ _
    rw [isPlain, blanks c List.mem_cons_self]
    rfl

/-- Texts behind separators have their marks behind commas. -/
theorem Shows.more (level : Nat) (indent : Option Int) {texts : List String}
    {groups : List (List Mark)} (each : List.Forall₂ Shows texts groups) {rest : List Char}
    {more : List Mark} (stops : Stops rest) (behind : marks? rest = some more) :
    Stops (texts.flatMap (fun text => (separator level indent).toList ++ text.toList) ++ rest) ∧
      marks? (texts.flatMap (fun text => (separator level indent).toList ++ text.toList) ++ rest) =
        some (groups.flatMap (.sign ',' :: ·) ++ more) := by
  obtain ⟨blanks, comma, all_blank⟩ := toList_separator level indent
  induction each with
  | nil => exact ⟨stops, behind⟩
  | @cons text marks texts groups shows _ ih =>
    have first := marks?_blanks all_blank (shows ih.1 ih.2)
    have whole := marks?_sign (show ',' ∈ signs by decide) first
    have front : (text :: texts).flatMap
          (fun text => (separator level indent).toList ++ text.toList) ++ rest =
        ',' :: (blanks ++ (text.toList ++ (texts.flatMap
          (fun text => (separator level indent).toList ++ text.toList) ++ rest))) := by
      rw [List.flatMap_cons, comma]
      simp
    rw [front, whole, List.flatMap_cons]
    exact ⟨.cons (by decide) _, by simp⟩

/-- Texts between brackets have their marks with commas between. -/
theorem Shows.bracketed {level : Nat} {indent : Option Int} {opening closing : Char}
    (opens : opening ∈ signs) (closes : closing ∈ signs) {texts : List String}
    {groups : List (List Mark)} (each : List.Forall₂ Shows texts groups) :
    Shows (bracketed indent level (.singleton opening) (.singleton closing) texts)
      (.sign opening :: (Mark.commas groups ++ [.sign closing])) := by
  have not_plain : ∀ c ∈ signs, isPlain c = false := by simp [signs, isPlain]
  intro rest more stops behind
  have closed := marks?_sign closes behind
  cases each with
  | nil =>
    have whole := marks?_sign opens closed
    simpa [Json.bracketed, Mark.commas] using whole
  | @cons text marks texts groups shows others =>
    have stop_closing : Stops (closing :: rest) := .cons (not_plain closing closes) rest
    have ending := marks?_blanks (lineBreak_blank level indent) closed
    obtain ⟨stop_others, onward⟩ := Shows.more (level + 1) indent others
      (stop_closing.behind (lineBreak_blank level indent)) ending
    have inside := marks?_blanks (lineBreak_blank (level + 1) indent) (shows stop_others onward)
    have whole := marks?_sign opens inside
    simp only [Json.bracketed, Mark.commas, String.toList_append, toList_intercalate_cons,
      String.toList_singleton]
    simpa using whole

/-- A word shows itself. -/
theorem Shows.word {word : String} (some_letter : word.toList ≠ [])
    (all_plain : ∀ c ∈ word.toList, isPlain c = true) : Shows word [.word word.toList] :=
  fun stops behind => marks?_word some_letter all_plain stops behind

/-- A fixed word has a mark. -/
theorem Shows.fixed {word : String} (some_letter : word.toList ≠ [])
    (all_plain : word.toList.all isPlain = true) : Shows word [.word word.toList] :=
  Shows.word some_letter (List.all_eq_true.mp all_plain)

/-- Digits are characters of words. -/
theorem isPlain_of_isDigit {c : Char} (digit : isDigit c = true) : isPlain c = true := by
  have others : ∀ other ∈ [' ', '\n', '\r', '\t', '"', '[', ']', '\x7b', '\x7d', ',', ':'],
      isDigit other = false := by simp [isDigit]
  have differs : ∀ other ∈ [' ', '\n', '\r', '\t', '"', '[', ']', '\x7b', '\x7d', ',', ':'],
      c ≠ other := by
    rintro other listed rfl
    rw [others c listed] at digit
    cases digit
  simp only [List.forall_mem_cons] at differs
  simp [isPlain, isBlank, signs, differs]

/-- The decimal text of an integer is a word. -/
theorem toString_plain (value : Int) :
    (toString value).toList ≠ [] ∧ ∀ c ∈ (toString value).toList, isPlain c = true := by
  have digits : ∀ number : Nat, number.repr.toList ≠ [] ∧
      ∀ c ∈ number.repr.toList, isPlain c = true := by
    intro number
    obtain ⟨some_digit, all_digits⟩ := Parser.repr_digits number
    exact ⟨some_digit, fun c found => isPlain_of_isDigit (all_digits c found)⟩
  cases value with
  | ofNat number => exact digits number
  | negSucc number =>
    have text : (toString (Int.negSucc number)).toList = '-' :: (number + 1).repr.toList := by
      have signed : toString (Int.negSucc number) = "-" ++ (number + 1).repr := rfl
      rw [signed, String.toList_append]
      rfl
    rw [text]
    exact ⟨List.cons_ne_nil _ _, List.forall_mem_cons.mpr ⟨by decide, (digits _).2⟩⟩

/-- The text of a field shows its name, a colon and its value. -/
theorem Shows.field (key : String) {text : String} {marks : List Mark} (shows : Shows text marks) :
    Shows (quoted key ++ ": " ++ text) (.text key :: .sign ':' :: marks) := by
  intro rest more stops behind
  have spaced := marks?_blank (show isBlank ' ' = true by decide) (shows stops behind)
  have colon := marks?_sign (show ':' ∈ signs by decide) spaced
  have whole := marks?_quoted key colon
  simpa using whole

mutual

/-- The text of a value has the marks of the value, whatever the indent is. -/
theorem shows_writeAt (indent : Option Int) : (level : Nat) → (value : Json) →
    Shows (writeAt indent level value) value.marks
  | _, null => show Shows "null" _ from Shows.fixed (by decide) (by decide)
  | _, bool true => show Shows "true" _ from Shows.fixed (by decide) (by decide)
  | _, bool false => show Shows "false" _ from Shows.fixed (by decide) (by decide)
  | _, number value => Shows.word (toString_plain value).1 (toString_plain value).2
  | _, text value => fun _ behind => marks?_quoted value behind
  | level, list items => by
    have whole : Shows (bracketed indent level (.singleton '[') (.singleton ']') _) _ :=
      Shows.bracketed (by decide) (by decide) (shows_writeItems indent (level + 1) items)
    exact whole
  | level, object fields => by
    have whole : Shows (bracketed indent level (.singleton '\x7b') (.singleton '\x7d') _) _ :=
      Shows.bracketed (by decide) (by decide) (shows_writeFields indent (level + 1) fields)
    exact whole

/-- The texts of the items of a list have the marks of the items. -/
theorem shows_writeItems (indent : Option Int) (level : Nat) : (items : List Json) →
    List.Forall₂ Shows (writeItems indent level items) (itemMarks items)
  | [] => .nil
  | item :: items => .cons (shows_writeAt indent level item) (shows_writeItems indent level items)

/-- The texts of the fields of an object have the marks of the fields. -/
theorem shows_writeFields (indent : Option Int) (level : Nat) : (fields : List (String × Json)) →
    List.Forall₂ Shows (writeFields indent level fields) (fieldMarks fields)
  | [] => .nil
  | (key, value) :: fields =>
    .cons (Shows.field key (shows_writeAt indent level value))
      (shows_writeFields indent level fields)

end

/-- The text of a value has the marks of the value and no others. -/
theorem marks?_write (indent : Option Int) (value : Json) :
    marks? (value.write indent).toList = some value.marks := by
  have ends : Stops [] := nofun
  have whole := shows_writeAt indent 0 value ends (show marks? [] = some [] from rfl)
  rw [List.append_nil, List.append_nil] at whole
  exact whole

end Json

end ExprLang
