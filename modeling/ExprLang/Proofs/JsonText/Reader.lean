import ExprLang.Proofs.JsonText.Marks

/-!
# Reading JSON texts

A row of marks is read with a stack of the lists and objects that are open (`Reader.step`). What is
read from the text of a value is this value, whatever the indent of the text is
(`Json.read?_write`).
-/

namespace ExprLang

namespace Json

/-- A list or an object that is open, with what is read of it so far. -/
inductive Frame where
  /-- A list with some items. -/
  | list (items : List Json)
  /-- An object with some fields and the name of the next one. -/
  | object (fields : List (String × Json)) (key : String)

/-- What comes next in a row of marks. -/
inductive Reader where
  /-- A value. -/
  | expecting (stack : List Frame)
  /-- The end of a list, or a comma. -/
  | inList (items : List Json) (stack : List Frame)
  /-- The end of an object, or a comma. -/
  | inObject (fields : List (String × Json)) (stack : List Frame)
  /-- The name of a field. -/
  | naming (fields : List (String × Json)) (stack : List Frame)
  /-- The colon behind the name of a field. -/
  | named (fields : List (String × Json)) (key : String) (stack : List Frame)
  /-- Nothing. -/
  | done (value : Json)

/-- The integer that a word writes. -/
def integer? : List Char → Option Int
  | '-' :: digits => (Text.readDecimal? digits).map fun number => -(number : Int)
  | digits => (Text.readDecimal? digits).map Int.ofNat

/-- The value that a word stands for. -/
def ofWord? (word : List Char) : Option Json :=
  if word = ['n', 'u', 'l', 'l'] then some .null
  else if word = ['t', 'r', 'u', 'e'] then some (.bool true)
  else if word = ['f', 'a', 'l', 's', 'e'] then some (.bool false)
  else (integer? word).map .number

namespace Reader

/-- A whole value becomes a part of what is open. -/
def put (value : Json) : List Frame → Reader
  | [] => .done value
  | .list items :: stack => .inList (items ++ [value]) stack
  | .object fields key :: stack => .inObject (fields ++ [(key, value)]) stack

/-- The end of a list in the place of its first item. -/
def closeEmpty : List Frame → Option Reader
  | .list [] :: stack => some (put (.list []) stack)
  | _ => none

/-- A mark is read in the place of a value. -/
def begin (stack : List Frame) : Mark → Option Reader
  | .text content => some (put (.text content) stack)
  | .word letters => (ofWord? letters).map (put · stack)
  | .sign c =>
    if c = '[' then some (.expecting (.list [] :: stack))
    else if c = '\x7b' then some (.naming [] stack)
    else if c = ']' then closeEmpty stack
    else none

/-- Reading goes on with a mark. -/
def step : Reader → Mark → Option Reader
  | .expecting stack, mark => begin stack mark
  | .inList items stack, .sign c =>
    if c = ',' then some (.expecting (.list items :: stack))
    else if c = ']' then some (put (.list items) stack)
    else none
  | .inObject fields stack, .sign c =>
    if c = ',' then some (.naming fields stack)
    else if c = '\x7d' then some (put (.object fields) stack)
    else none
  | .naming fields stack, .text key => some (.named fields key stack)
  | .naming [] stack, .sign c => if c = '\x7d' then some (put (.object []) stack) else none
  | .named fields key stack, .sign c =>
    if c = ':' then some (.expecting (.object fields key :: stack)) else none
  | _, _ => none

/-- Reading goes on over a row of marks. -/
def steps (reader : Reader) (marks : List Mark) : Option Reader := marks.foldlM step reader

/-- A row of marks is read mark by mark. -/
theorem steps_cons {reader next : Reader} {mark : Mark} (first : reader.step mark = some next)
    (marks : List Mark) : reader.steps (mark :: marks) = next.steps marks := by
  rw [steps, List.foldlM_cons, first]
  rfl

/-- A row of marks is read part by part. -/
theorem steps_append {reader next : Reader} {marks : List Mark}
    (first : reader.steps marks = some next) (others : List Mark) :
    reader.steps (marks ++ others) = next.steps others := by
  unfold steps at first ⊢
  rw [List.foldlM_append, first]
  rfl

end Reader

/-- The value that a row of marks writes. -/
def ofMarks? (marks : List Mark) : Option Json :=
  match (Reader.expecting []).steps marks with
  | some (.done value) => some value
  | _ => none

/-- The value that a text writes. -/
def read? (text : String) : Option Json := (marks? text.toList).bind ofMarks?

/-! ## Reading back -/

/-- The digits of a number are read as this number. -/
theorem readDecimal?_repr (number : Nat) :
    Text.readDecimal? number.repr.toList = some number := by
  obtain ⟨some_digit, all_digits⟩ := Parser.repr_digits number
  rw [Text.readDecimal?_of_digits some_digit all_digits, Nat.toList_repr,
    Nat.ofDigitChars_ten_toDigits]

/-- The text of an integer is read as this integer. -/
theorem integer?_toString (value : Int) : integer? (toString value).toList = some value := by
  cases value with
  | ofNat number =>
    have text : (toString (Int.ofNat number)).toList = number.repr.toList := rfl
    have unsigned : ∀ digits, number.repr.toList ≠ '-' :: digits := by
      intro digits same
      have digit := (Parser.repr_digits number).2 '-' (by simp [same])
      exact absurd digit (by decide)
    rw [text, integer?, readDecimal?_repr]
    · rfl
    · exact unsigned
  | negSucc number =>
    have signed : toString (Int.negSucc number) = "-" ++ (number + 1).repr := rfl
    have text : (toString (Int.negSucc number)).toList = '-' :: (number + 1).repr.toList := by
      rw [signed, String.toList_append]
      rfl
    rw [text, integer?, readDecimal?_repr]
    rfl

/-- The text of an integer is a word for this integer. -/
theorem ofWord?_toString (value : Int) :
    ofWord? (toString value).toList = some (.number value) := by
  have names : ∀ word ∈ [['n', 'u', 'l', 'l'], ['t', 'r', 'u', 'e'], ['f', 'a', 'l', 's', 'e']],
      integer? word = none := by decide
  have differs : ∀ word ∈ [['n', 'u', 'l', 'l'], ['t', 'r', 'u', 'e'], ['f', 'a', 'l', 's', 'e']],
      (toString value).toList ≠ word := by
    intro word listed same
    have read := integer?_toString value
    rw [same, names word listed] at read
    cases read
  rw [ofWord?, if_neg (differs _ (by simp)), if_neg (differs _ (by simp)),
    if_neg (differs _ (by simp)), integer?_toString, Option.map_some]

/-- The marks of a value are read as the value. -/
def Reads (value : Json) : Prop :=
  ∀ stack, (Reader.expecting stack).steps value.marks = some (.put value stack)

namespace Reader

/-- Items behind commas are read one by one. -/
theorem steps_items (items : List Json) (reads : ∀ item ∈ items, Reads item)
    (before : List Json) (stack : List Frame) :
    (Reader.inList before stack).steps ((itemMarks items).flatMap (.sign ',' :: ·)) =
      some (.inList (before ++ items) stack) := by
  induction items generalizing before with
  | nil => rw [List.append_nil]; rfl
  | cons item items ih =>
    obtain ⟨first, others⟩ := List.forall_mem_cons.mp reads
    have comma : (Reader.inList before stack).step (.sign ',') =
        some (.expecting (.list before :: stack)) := rfl
    have onward := ih others (before ++ [item])
    rw [itemMarks, List.flatMap_cons, List.cons_append, steps_cons comma,
      steps_append (first (.list before :: stack)), put, onward, List.append_assoc]
    rfl

/-- A field is read in the place of a name. -/
theorem steps_field (key : String) {value : Json} (reads : Reads value)
    (before : List (String × Json)) (stack : List Frame) (others : List Mark) :
    (Reader.naming before stack).steps (.text key :: .sign ':' :: (value.marks ++ others)) =
      (Reader.inObject (before ++ [(key, value)]) stack).steps others := by
  have named : (Reader.naming before stack).step (.text key) = some (.named before key stack) := by
    cases before <;> rfl
  have colon : (Reader.named before key stack).step (.sign ':') =
      some (.expecting (.object before key :: stack)) := rfl
  rw [steps_cons named, steps_cons colon, steps_append (reads (.object before key :: stack)), put]

/-- Fields behind commas are read one by one. -/
theorem steps_fields (fields : List (String × Json)) (reads : ∀ field ∈ fields, Reads field.2)
    (before : List (String × Json)) (stack : List Frame) :
    (Reader.inObject before stack).steps ((fieldMarks fields).flatMap (.sign ',' :: ·)) =
      some (.inObject (before ++ fields) stack) := by
  induction fields generalizing before with
  | nil => rw [List.append_nil]; rfl
  | cons field fields ih =>
    obtain ⟨key, value⟩ := field
    obtain ⟨first, others⟩ := List.forall_mem_cons.mp reads
    have comma : (Reader.inObject before stack).step (.sign ',') =
        some (.naming before stack) := rfl
    have onward := ih others (before ++ [(key, value)])
    rw [fieldMarks, List.flatMap_cons, List.cons_append, steps_cons comma]
    simp only [List.cons_append]
    rw [steps_field key first, onward, List.append_assoc]
    rfl

/-- A list is read when its items are. -/
theorem reads_list {items : List Json} (reads : ∀ item ∈ items, Reads item) :
    Reads (.list items) := by
  intro stack
  have opened : (Reader.expecting stack).step (.sign '[') =
      some (.expecting (.list [] :: stack)) := rfl
  rw [marks, steps_cons opened]
  cases items with
  | nil => rfl
  | cons item items =>
    obtain ⟨first, others⟩ := List.forall_mem_cons.mp reads
    have closed : (Reader.inList ([] ++ [item] ++ items) stack).steps [.sign ']'] =
        some (put (.list (item :: items)) stack) := rfl
    rw [itemMarks, Mark.commas, List.append_assoc, steps_append (first (.list [] :: stack)), put,
      steps_append (steps_items items others ([] ++ [item]) stack), closed]

/-- An object is read when the values of its fields are. -/
theorem reads_object {fields : List (String × Json)} (reads : ∀ field ∈ fields, Reads field.2) :
    Reads (.object fields) := by
  intro stack
  have opened : (Reader.expecting stack).step (.sign '\x7b') = some (.naming [] stack) := rfl
  rw [marks, steps_cons opened]
  cases fields with
  | nil => rfl
  | cons field fields =>
    obtain ⟨key, value⟩ := field
    obtain ⟨first, others⟩ := List.forall_mem_cons.mp reads
    have closed : (Reader.inObject ([] ++ [(key, value)] ++ fields) stack).steps [.sign '\x7d'] =
        some (put (.object ((key, value) :: fields)) stack) := rfl
    rw [fieldMarks, Mark.commas]
    simp only [List.cons_append, List.append_assoc]
    rw [steps_field key first,
      steps_append (steps_fields fields others ([] ++ [(key, value)]) stack), closed]

end Reader

mutual

/-- The marks of every value are read as this value. -/
theorem reads : (value : Json) → Reads value
  | null => fun _ => rfl
  | bool true => fun _ => rfl
  | bool false => fun _ => rfl
  | number value => fun stack => by
    have word : (Reader.expecting stack).step (.word (toString value).toList) =
        some (.put (.number value) stack) := by
      rw [Reader.step, Reader.begin, ofWord?_toString, Option.map_some]
    rw [marks, Reader.steps_cons word]
    rfl
  | text _ => fun _ => rfl
  | list items => Reader.reads_list (readsItems items)
  | object fields => Reader.reads_object (readsFields fields)

/-- The marks of every item of a list are read as this item. -/
theorem readsItems : (items : List Json) → ∀ item ∈ items, Reads item
  | [] => fun _ found => absurd found List.not_mem_nil
  | item :: items => List.forall_mem_cons.mpr ⟨reads item, readsItems items⟩

/-- The marks of the value of every field of an object are read as this value. -/
theorem readsFields : (fields : List (String × Json)) → ∀ field ∈ fields, Reads field.2
  | [] => fun _ found => absurd found List.not_mem_nil
  | (_, value) :: fields => List.forall_mem_cons.mpr ⟨reads value, readsFields fields⟩

end

/-- What is read from the text of a value is this value, whatever the indent of the text is. -/
theorem read?_write (indent : Option Int) (value : Json) :
    read? (value.write indent) = some value := by
  have whole := reads value []
  rw [Reader.put] at whole
  rw [read?, marks?_write, Option.bind_some, ofMarks?, whole]

end Json

end ExprLang
