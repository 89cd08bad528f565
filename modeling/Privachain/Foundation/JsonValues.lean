import Privachain.Foundation.Json

/-!
# Values as JSON texts

`JSON.stringify` writes arrays and objects member by member, without
`undefined` properties, and infinite numbers as `null`.  What it writes is read
back, and what is read without infinite numbers is written back.
-/

namespace Foundation
namespace JavaScript
namespace JSON

/-! ## JSON values -/

section Data

variable (numbers : Number -> Prop)

mutual

/-- A value of a text, with numbers of a kind: objects have their properties in
order, and there is neither `undefined` nor a big integer. -/
def IsData : Value -> Prop
  | .undefined => False
  | .null => True
  | .boolean _ => True
  | .number value => numbers value
  | .bigint _ => False
  | .string _ => True
  | .array items => AreData items
  | .object fields => IsOwn fields ∧ MembersAreData fields

@[inherit_doc IsData]
def AreData : List Value -> Prop
  | [] => True
  | item :: items => IsData item ∧ AreData items

@[inherit_doc IsData]
def MembersAreData : List (String × Value) -> Prop
  | [] => True
  | (_, value) :: fields => IsData value ∧ MembersAreData fields

end

end Data

/-- A value that is written as it is: all numbers inside are finite. -/
abbrev IsJson : Value -> Prop := IsData Number.IsFinite

/-- A value that is read from a text, where numbers may be infinite. -/
abbrev IsParsed : Value -> Prop := IsData Number.IsRounded

section Data

variable {numbers : Number -> Prop}

theorem areData_iff (items : List Value) :
    AreData numbers items ↔ ∀ item ∈ items, IsData numbers item := by
  induction items with
  | nil => simp [AreData]
  | cons item items inductionHypothesis =>
      rw [AreData, inductionHypothesis, List.forall_mem_cons]

theorem membersAreData_iff (fields : List (String × Value)) :
    MembersAreData numbers fields ↔
      ∀ field ∈ fields, IsData numbers field.2 := by
  induction fields with
  | nil => simp [MembersAreData]
  | cons field fields inductionHypothesis =>
      rw [MembersAreData, inductionHypothesis, List.forall_mem_cons]

end Data

mutual

/-- A value without infinite numbers is one that may be read. -/
theorem isParsed_of_isJson : (value : Value) -> IsJson value -> IsParsed value
  | .null, _ => trivial
  | .boolean _, _ => trivial
  | .number value, isFinite => Number.isRounded_of_isFinite value isFinite
  | .string _, _ => trivial
  | .array items, areJson => areParsed_of_areJson items areJson
  | .object fields, isJson =>
      ⟨isJson.1, membersAreParsed_of_membersAreJson fields isJson.2⟩

@[inherit_doc isParsed_of_isJson]
theorem areParsed_of_areJson : (items : List Value) ->
    AreData Number.IsFinite items -> AreData Number.IsRounded items
  | [], _ => trivial
  | item :: items, areJson =>
      ⟨isParsed_of_isJson item areJson.1, areParsed_of_areJson items areJson.2⟩

@[inherit_doc isParsed_of_isJson]
theorem membersAreParsed_of_membersAreJson : (fields : List (String × Value)) ->
    MembersAreData Number.IsFinite fields ->
    MembersAreData Number.IsRounded fields
  | [], _ => trivial
  | (_, value) :: fields, areJson =>
      ⟨isParsed_of_isJson value areJson.1,
        membersAreParsed_of_membersAreJson fields areJson.2⟩

end

/-- The integers of the program are written as they are. -/
theorem isJson_ofInt (value : Int) : IsJson (.ofInt value) :=
  Number.isDouble_nearestFinite value

/-! ## Writing -/

mutual

/-- Some value inside is a big integer. -/
def hasBigInt : Value -> Bool
  | .bigint _ => true
  | .array items => anyHasBigInt items
  | .object fields => memberHasBigInt fields
  | _ => false

@[inherit_doc hasBigInt]
def anyHasBigInt : List Value -> Bool
  | [] => false
  | item :: items => hasBigInt item || anyHasBigInt items

@[inherit_doc hasBigInt]
def memberHasBigInt : List (String × Value) -> Bool
  | [] => false
  | (_, value) :: fields => hasBigInt value || memberHasBigInt fields

end

/-- What is written for a number: only finite ones have a text. -/
def numberData : Number -> Value
  | .finite value =>
      match Number.ofRational value with
      | .finite rounded => .number (.finite rounded)
      | _ => .null
  | _ => .null

mutual

/-- What is written for a value: big integers as their decimal text, `undefined`
as `null` in arrays and not at all in objects. -/
def jsonData : Value -> Value
  | .undefined => .null
  | .null => .null
  | .boolean value => .boolean value
  | .number value => numberData value
  | .bigint value => .string (bigIntToString value)
  | .string text => .string text
  | .array items => .array (elementData items)
  | .object fields => .object ((memberData fields).foldl assign [])

@[inherit_doc jsonData]
def elementData : List Value -> List Value
  | [] => []
  | item :: items => jsonData item :: elementData items

@[inherit_doc jsonData]
def memberData : List (String × Value) -> List (String × Value)
  | [] => []
  | (_, .undefined) :: fields => memberData fields
  | (name, value) :: fields => (name, jsonData value) :: memberData fields

end

mutual

/-- The text of a JSON value. -/
def writeValue : Value -> List Char
  | .undefined => []
  | .null => "null".toList
  | .boolean value => if value then "true".toList else "false".toList
  | .number value => numberToString value
  | .bigint _ => []
  | .string text => quote text
  | .array items => '[' :: (writeElements items ++ [']'])
  | .object fields => leftBrace :: (writeMembers fields ++ [rightBrace])

/-- The elements of an array between its brackets. -/
def writeElements : List Value -> List Char
  | [] => []
  | [item] => writeValue item
  | item :: next :: items =>
      writeValue item ++ ',' :: writeElements (next :: items)

/-- The members of an object between its braces. -/
def writeMembers : List (String × Value) -> List Char
  | [] => []
  | [(name, value)] => quote name ++ ':' :: writeValue value
  | (name, value) :: next :: fields =>
      quote name ++ ':' :: (writeValue value ++ ',' ::
        writeMembers (next :: fields))

end

/-- `JSON.stringify(value, replacer)` for arrays and objects, with a replacer
that turns big integers into their decimal text. -/
def stringifyReplaced (value : Value) : String :=
  String.ofList (writeValue (jsonData value))

/-- `JSON.stringify(value)` for arrays and objects. -/
def stringifyValue (value : Value) : Except Exception String :=
  if hasBigInt value then
    .error (.typeError "Do not know how to serialize a BigInt")
  else .ok (stringifyReplaced value)

/-- `JSON.stringify(object)` for an object with string properties. -/
def stringifyStrings (fields : List (String × String)) : String :=
  stringifyReplaced
    (.object (fields.map fun field => (field.1, .string field.2)))

/-! ## What is written is read back -/

/-- A number starts with its sign or with a digit. -/
theorem exists_start_of_readNumber
    {text : List Char}
    {result : Value × List Char}
    (read : readNumber text = some result) :
    ∃ c rest, text = c :: rest ∧ (c = '-' ∨ c.isDigit = true) := by
  cases text with
  | nil => cases read
  | cons c rest =>
      refine ⟨c, rest, rfl, ?_⟩
      by_contra other
      obtain ⟨noSign, noDigit⟩ := not_or.mp other
      have unread : readMagnitude (c :: rest) = none := by
        rw [readMagnitude, List.takeWhile_cons_of_neg noDigit, if_pos (.inl rfl)]
      unfold readNumber at read
      split at read
      · rename_i same
        exact noSign (List.cons.inj same).1
      · rw [unread] at read
        cases read

/-- No literal starts as a number does. -/
theorem readLiteral_of_start
    {c : Char}
    (start : c = '-' ∨ c.isDigit = true)
    (rest : List Char) :
    readLiteral (c :: rest) = readNumber (c :: rest) := by
  have other : ∀ letter ∈ ['n', 't', 'f'], (letter == c) = false := by
    intro letter isLetter
    rw [beq_eq_false_iff_ne]
    rintro rfl
    rcases start with rfl | digit
    · exact absurd isLetter (by decide)
    · simp only [List.mem_cons, List.not_mem_nil, or_false] at isLetter
      rcases isLetter with rfl | rfl | rfl <;> exact absurd digit (by decide)
  have noPrefix : ∀ letter ∈ ['n', 't', 'f'], ∀ letters : List Char,
      ¬(letter :: letters).isPrefixOf (c :: rest) = true := by
    intro letter isLetter letters
    rw [List.isPrefixOf_cons_cons, other letter isLetter, Bool.false_and]
    decide
  have nullText : "null".toList = ['n', 'u', 'l', 'l'] := by decide
  have trueText : "true".toList = ['t', 'r', 'u', 'e'] := by decide
  have falseText : "false".toList = ['f', 'a', 'l', 's', 'e'] := by decide
  rw [readLiteral, nullText, trueText, falseText,
    if_neg (noPrefix 'n' (by decide) _), if_neg (noPrefix 't' (by decide) _),
    if_neg (noPrefix 'f' (by decide) _)]

/-- A character that starts a value: it is no white space and closes nothing. -/
def StartsValue (c : Char) : Prop :=
  [9, 10, 13, 32].contains c.toNat = false ∧ c ≠ ']'

instance (c : Char) : Decidable (StartsValue c) :=
  inferInstanceAs (Decidable (_ ∧ _))

/-- The sign and the digits start a value. -/
theorem startsValue_of_start
    {c : Char}
    (start : c = '-' ∨ c.isDigit = true) :
    StartsValue c ∧ c ≠ quotationMark ∧ c ≠ leftBrace ∧ c ≠ '[' := by
  rcases start with rfl | digit
  · decide
  · have different : ∀ other : Char, other.isDigit = false -> c ≠ other := by
      rintro other noDigit rfl
      rw [digit] at noDigit
      cases noDigit
    have noSpace : [9, 10, 13, 32].contains c.toNat = false := by
      have lower : 48 ≤ c.toNat := by
        simp only [Char.isDigit, Bool.and_eq_true, decide_eq_true_eq] at digit
        exact digit.1
      simp only [List.contains_cons, List.contains_nil, Bool.or_eq_false_iff,
        beq_eq_false_iff_ne, and_true]
      omega
    exact ⟨⟨noSpace, different ']' (by decide)⟩,
      different quotationMark (by decide), different leftBrace (by decide),
      different '[' (by decide)⟩

/-- A character that starts neither a string nor a container starts a
literal. -/
theorem readValue_literal
    (fuel : Nat)
    {c : Char}
    (starts : StartsValue c)
    (noString : c ≠ quotationMark)
    (noObject : c ≠ leftBrace)
    (noArray : c ≠ '[')
    (rest : List Char) :
    readValue (fuel + 1) (c :: rest) = readLiteral (c :: rest) := by
  rw [readValue, skipSpace_cons starts.1]
  simp only [if_neg noString, if_neg noObject, if_neg noArray]

/-- The text of a double is read as a value. -/
theorem readValue_finiteText
    (fuel : Nat)
    {value : ℚ}
    (isDouble : Number.IsDouble value)
    {rest : List Char}
    (ends : EndsNumber rest) :
    readValue (fuel + 1) (finiteText value ++ rest) =
      some (.number (.finite value), rest) := by
  have read := readNumber_finiteText isDouble ends
  obtain ⟨c, text, split, start⟩ := exists_start_of_readNumber read
  obtain ⟨starts, noString, noObject, noArray⟩ := startsValue_of_start start
  rw [split] at read ⊢
  rw [readValue_literal fuel starts noString noObject noArray,
    readLiteral_of_start start, read]

/-- The text of a JSON value starts a value. -/
theorem exists_start_of_isJson
    {value : Value}
    (isJson : IsJson value) :
    ∃ c rest, writeValue value = c :: rest ∧ StartsValue c := by
  cases value with
  | undefined => exact isJson.elim
  | null => exact ⟨'n', ['u', 'l', 'l'], by decide, by decide⟩
  | boolean value =>
      cases value with
      | false => exact ⟨'f', ['a', 'l', 's', 'e'], by decide, by decide⟩
      | true => exact ⟨'t', ['r', 'u', 'e'], by decide, by decide⟩
  | number number =>
      cases number with
      | notANumber => exact isJson.elim
      | infinite negative => exact isJson.elim
      | finite value =>
          have ends : EndsNumber [] := by rintro c ⟨⟩
          have read := readNumber_finiteText isJson ends
          rw [List.append_nil] at read
          obtain ⟨c, rest, split, start⟩ := exists_start_of_readNumber read
          exact ⟨c, rest, split, (startsValue_of_start start).1⟩
  | bigint value => exact isJson.elim
  | string text => exact ⟨_, _, rfl, by decide⟩
  | array items => exact ⟨_, _, rfl, by decide⟩
  | object fields => exact ⟨_, _, rfl, by decide⟩

/-- A comma, a bracket and a brace end a number. -/
theorem endsNumber_cons
    {c : Char}
    (closes : c ∈ [',', ']', rightBrace])
    (rest : List Char) :
    EndsNumber (c :: rest) := by
  rintro _ ⟨⟩
  simp only [List.mem_cons, List.not_mem_nil, or_false] at closes
  rcases closes with rfl | rfl | rfl
  · decide
  · decide
  · decide

/-- A bracket opens an array. -/
theorem readValue_array (fuel : Nat) (text : List Char) :
    readValue (fuel + 1) ('[' :: text) =
      if (skipSpace text).head? = some ']' then
        some (.array [], (skipSpace text).drop 1)
      else do
        let (items, rest) ← readElements fuel text
        return (.array items, rest) := by
  rw [readValue, skipSpace_cons (by decide)]
  have noString : '[' ≠ quotationMark := by decide
  have noObject : '[' ≠ leftBrace := by decide
  simp only [if_neg noString, if_neg noObject, if_pos]

/-- A brace opens an object. -/
theorem readValue_object (fuel : Nat) (text : List Char) :
    readValue (fuel + 1) (leftBrace :: text) =
      if (skipSpace text).head? = some rightBrace then
        some (.object [], (skipSpace text).drop 1)
      else do
        let (fields, rest) ← readMembers fuel text
        return (.object (fields.foldl assign []), rest) := by
  rw [readValue, skipSpace_cons (by decide)]
  have noString : leftBrace ≠ quotationMark := by decide
  simp only [if_neg noString, if_pos]

/-- The elements of an array do not start with its closing bracket. -/
theorem elements_notClosed
    {item : Value}
    (isJson : IsJson item)
    (items : List Value)
    (rest : List Char) :
    (skipSpace (writeElements (item :: items) ++ rest)).head? ≠ some ']' := by
  obtain ⟨c, first, start, noSpace, notClosing⟩ := exists_start_of_isJson isJson
  obtain ⟨more, split⟩ : ∃ more,
      writeElements (item :: items) = c :: more := by
    cases items with
    | nil => exact ⟨first, start⟩
    | cons next items =>
        refine ⟨first ++ ',' :: writeElements (next :: items), ?_⟩
        rw [writeElements, start, List.cons_append]
  rw [split, List.cons_append, skipSpace_cons noSpace, List.head?_cons]
  intro same
  exact notClosing (Option.some.inj same)

/-- The members of an object do not start with its closing brace. -/
theorem members_notClosed
    (field : String × Value)
    (fields : List (String × Value))
    (rest : List Char) :
    (skipSpace (writeMembers (field :: fields) ++ rest)).head? ≠
      some rightBrace := by
  obtain ⟨more, split⟩ : ∃ more,
      writeMembers (field :: fields) = quotationMark :: more := by
    cases fields with
    | nil => exact ⟨_, rfl⟩
    | cons next fields => exact ⟨_, rfl⟩
  rw [split, List.cons_append, skipSpace_cons (by decide), List.head?_cons]
  decide

mutual

/-- A JSON value is read back. -/
theorem readValue_writeValue :
    (value : Value) -> IsJson value -> (fuel : Nat) ->
    (writeValue value).length < fuel -> (rest : List Char) ->
    EndsNumber rest ->
    readValue fuel (writeValue value ++ rest) = some (value, rest)
  | .null, _, fuel + 1, _, rest, _ => by
      have text : writeValue .null ++ rest = 'n' :: 'u' :: 'l' :: 'l' :: rest :=
        rfl
      rw [text, readValue_literal fuel (by decide) (by decide) (by decide)
        (by decide)]
      rfl
  | .boolean true, _, fuel + 1, _, rest, _ => by
      have text : writeValue (.boolean true) ++ rest =
          't' :: 'r' :: 'u' :: 'e' :: rest := rfl
      rw [text, readValue_literal fuel (by decide) (by decide) (by decide)
        (by decide)]
      rfl
  | .boolean false, _, fuel + 1, _, rest, _ => by
      have text : writeValue (.boolean false) ++ rest =
          'f' :: 'a' :: 'l' :: 's' :: 'e' :: rest := rfl
      rw [text, readValue_literal fuel (by decide) (by decide) (by decide)
        (by decide)]
      rfl
  | .number (.finite _), isDouble, fuel + 1, _, _, ends =>
      readValue_finiteText fuel isDouble ends
  | .string text, _, fuel + 1, _, rest, _ => readValue_quote fuel text rest
  | .array [], _, fuel + 1, _, rest, _ => by
      have text : writeValue (.array []) ++ rest = '[' :: ']' :: rest := rfl
      rw [text, readValue_array]
      rfl
  | .array (item :: items), isJson, fuel + 1, enough, rest, _ => by
      have text : writeValue (.array (item :: items)) ++ rest =
          '[' :: (writeElements (item :: items) ++ ']' :: rest) := by
        simp [writeValue]
      have within : (writeElements (item :: items)).length + 1 < fuel := by
        rw [writeValue, List.length_cons, List.length_append] at enough
        exact Nat.lt_of_succ_lt_succ enough
      rw [text, readValue_array, if_neg (elements_notClosed isJson.1 _ _),
        readElements_writeElements (item :: items) (List.cons_ne_nil _ _)
          isJson fuel within rest]
      rfl
  | .object [], _, fuel + 1, _, rest, _ => by
      have text : writeValue (.object []) ++ rest =
          leftBrace :: rightBrace :: rest := rfl
      rw [text, readValue_object]
      rfl
  | .object (field :: fields), isJson, fuel + 1, enough, rest, _ => by
      have text : writeValue (.object (field :: fields)) ++ rest =
          leftBrace :: (writeMembers (field :: fields) ++
            rightBrace :: rest) := by
        simp [writeValue]
      have within : (writeMembers (field :: fields)).length + 1 < fuel := by
        rw [writeValue, List.length_cons, List.length_append] at enough
        exact Nat.lt_of_succ_lt_succ enough
      have own := foldl_assign (field :: fields) [] isJson.1
      rw [text, readValue_object, if_neg (members_notClosed _ _ _),
        readMembers_writeMembers (field :: fields) (List.cons_ne_nil _ _)
          isJson.2 fuel within rest]
      simp only [Option.bind_eq_bind, Option.bind_some, own]
      rfl

/-- The elements of an array are read back with the bracket behind them. -/
theorem readElements_writeElements :
    (items : List Value) -> items ≠ [] ->
    AreData Number.IsFinite items -> (fuel : Nat) ->
    (writeElements items).length + 1 < fuel -> (rest : List Char) ->
    readElements fuel (writeElements items ++ ']' :: rest) = some (items, rest)
  | [item], _, isJson, fuel + 1, enough, rest => by
      have read := readValue_writeValue item isJson.1 fuel
        (by rw [writeElements] at enough; omega) (']' :: rest)
        (endsNumber_cons (by decide) rest)
      rw [writeElements, readElements, read]
      simp only [Option.bind_eq_bind, Option.bind_some,
        skipSpace_cons (c := ']') (by decide)]
      rfl
  | item :: next :: items, _, isJson, fuel + 1, enough, rest => by
      rw [writeElements, List.length_append, List.length_cons] at enough
      have read := readValue_writeValue item isJson.1 fuel (by omega)
        (',' :: (writeElements (next :: items) ++ ']' :: rest))
        (endsNumber_cons (by decide) _)
      have readRest := readElements_writeElements (next :: items)
        (List.cons_ne_nil _ _) isJson.2 fuel (by omega) rest
      rw [writeElements, List.append_assoc, List.cons_append, readElements,
        read]
      simp only [Option.bind_eq_bind, Option.bind_some,
        skipSpace_cons (c := ',') (by decide), readRest]
      rfl

/-- The members of an object are read back with the brace behind them. -/
theorem readMembers_writeMembers :
    (fields : List (String × Value)) -> fields ≠ [] ->
    MembersAreData Number.IsFinite fields ->
    (fuel : Nat) -> (writeMembers fields).length + 1 < fuel ->
    (rest : List Char) ->
    readMembers fuel (writeMembers fields ++ rightBrace :: rest) =
      some (fields, rest)
  | [(name, value)], _, isJson, fuel + 1, enough, rest => by
      rw [writeMembers, List.length_append, List.length_cons] at enough
      have read := readValue_writeValue value isJson.1 fuel (by omega)
        (rightBrace :: rest) (endsNumber_cons (by decide) rest)
      rw [writeMembers, List.append_assoc, List.cons_append,
        readMembers_member fuel name read (by decide), if_neg (by decide),
        if_pos rfl]
  | (name, value) :: next :: fields, _, isJson, fuel + 1, enough, rest => by
      rw [writeMembers, List.length_append, List.length_cons,
        List.length_append, List.length_cons] at enough
      have read := readValue_writeValue value isJson.1 fuel (by omega)
        (',' :: (writeMembers (next :: fields) ++ rightBrace :: rest))
        (endsNumber_cons (by decide) _)
      have readRest := readMembers_writeMembers (next :: fields)
        (List.cons_ne_nil _ _) isJson.2 fuel (by omega) rest
      rw [writeMembers, List.append_assoc, List.cons_append, List.append_assoc,
        List.cons_append, readMembers_member fuel name read (by decide),
        if_pos rfl, readRest]
      rfl

end

/-! ## What is read is a value of a text -/

/-- Assigned members are the new one and earlier ones. -/
theorem mem_assign
    {fields : List (String × Value)}
    {field other : String × Value}
    (member : other ∈ assign fields field) :
    other = field ∨ other ∈ fields := by
  unfold assign at member
  split at member
  · obtain ⟨earlier, isEarlier, rfl⟩ := List.mem_map.mp member
    by_cases same : earlier.1 = field.1
    · exact .inl (if_pos same)
    · rw [if_neg same]
      exact .inr isEarlier
  · rcases List.mem_append.mp member with before | fromField
    · exact .inr ((List.takeWhile_sublist _).subset before)
    · rcases List.mem_cons.mp fromField with same | behind
      · exact .inl same
      · exact .inr ((List.dropWhile_sublist _).subset behind)

/-- The own properties of members with values make an object. -/
theorem isData_object_foldl_assign
    {numbers : Number -> Prop}
    {fields earlier : List (String × Value)}
    (own : IsOwn earlier)
    (earlierData : MembersAreData numbers earlier)
    (areData : MembersAreData numbers fields) :
    IsData numbers (.object (fields.foldl assign earlier)) := by
  induction fields generalizing earlier with
  | nil => exact ⟨own, earlierData⟩
  | cons field fields inductionHypothesis =>
      refine inductionHypothesis (own.assign field) ?_ areData.2
      rw [membersAreData_iff] at earlierData ⊢
      intro other member
      rcases mem_assign member with rfl | isEarlier
      · exact areData.1
      · exact earlierData other isEarlier

/-- A number that is read is rounded. -/
theorem isParsed_of_readNumber
    {text rest : List Char}
    {value : Value}
    (read : readNumber text = some (value, rest)) :
    IsParsed value := by
  unfold readNumber at read
  split at read
  · obtain ⟨⟨mantissa, exponent, _⟩, -, result⟩ :=
      Option.bind_eq_some_iff.mp read
    cases result
    exact Number.isRounded_ofRational _
  · obtain ⟨⟨mantissa, exponent, _⟩, -, result⟩ :=
      Option.bind_eq_some_iff.mp read
    cases result
    exact Number.isRounded_ofRational _

/-- A literal or a number that is read is a value of a text. -/
theorem isParsed_of_readLiteral
    {text rest : List Char}
    {value : Value}
    (read : readLiteral text = some (value, rest)) :
    IsParsed value := by
  unfold readLiteral at read
  split at read
  · cases read
    trivial
  · split at read
    · cases read
      trivial
    · split at read
      · cases read
        trivial
      · exact isParsed_of_readNumber read

section Step

variable
  {fuel : Nat}
  (values : ∀ text value rest, readValue fuel text = some (value, rest) ->
    IsParsed value)
  (elements : ∀ text items rest,
    readElements fuel text = some (items, rest) ->
      AreData Number.IsRounded items)
  (members : ∀ text fields rest,
    readMembers fuel text = some (fields, rest) ->
      MembersAreData Number.IsRounded fields)

include elements members in
/-- A value is one of a text if its elements and its members are. -/
theorem isParsed_of_readValue_succ
    {text rest : List Char}
    {value : Value}
    (read : readValue (fuel + 1) text = some (value, rest)) :
    IsParsed value := by
  rw [readValue] at read
  split at read
  · cases read
  · split at read
    · obtain ⟨⟨string, _⟩, -, result⟩ := Option.bind_eq_some_iff.mp read
      cases result
      trivial
    · split at read
      · split at read
        · cases read
          exact ⟨List.Pairwise.nil, trivial⟩
        · obtain ⟨⟨fields, _⟩, readFields, result⟩ :=
            Option.bind_eq_some_iff.mp read
          cases result
          exact isData_object_foldl_assign List.Pairwise.nil trivial
            (members _ _ _ readFields)
      · split at read
        · split at read
          · cases read
            trivial
          · obtain ⟨⟨items, _⟩, readItems, result⟩ :=
              Option.bind_eq_some_iff.mp read
            cases result
            exact elements _ _ _ readItems
        · exact isParsed_of_readLiteral read

include values elements in
/-- Elements are values of a text if the first one and the others are. -/
theorem areParsed_of_readElements_succ
    {text rest : List Char}
    {items : List Value}
    (read : readElements (fuel + 1) text = some (items, rest)) :
    AreData Number.IsRounded items := by
  rw [readElements] at read
  obtain ⟨⟨value, afterValue⟩, readFirst, read⟩ :=
    Option.bind_eq_some_iff.mp read
  have first := values _ _ _ readFirst
  dsimp only at read
  split at read
  · obtain ⟨⟨others, _⟩, readRest, result⟩ := Option.bind_eq_some_iff.mp read
    cases result
    exact ⟨first, elements _ _ _ readRest⟩
  · cases read
    exact ⟨first, trivial⟩
  · cases read

include values members in
/-- Members are values of a text if the first one and the others are. -/
theorem membersAreParsed_of_readMembers_succ
    {text rest : List Char}
    {fields : List (String × Value)}
    (read : readMembers (fuel + 1) text = some (fields, rest)) :
    MembersAreData Number.IsRounded fields := by
  rw [readMembers] at read
  split at read
  · cases read
  · split at read
    · obtain ⟨⟨name, afterName⟩, -, read⟩ := Option.bind_eq_some_iff.mp read
      dsimp only at read
      split at read
      · obtain ⟨⟨value, afterValue⟩, readFirst, read⟩ :=
          Option.bind_eq_some_iff.mp read
        have first := values _ _ _ readFirst
        dsimp only at read
        split at read
        · cases read
        · split at read
          · obtain ⟨⟨others, _⟩, readRest, result⟩ :=
              Option.bind_eq_some_iff.mp read
            cases result
            exact ⟨first, members _ _ _ readRest⟩
          · split at read
            · cases read
              exact ⟨first, trivial⟩
            · cases read
      · cases read
    · cases read

end Step

/-- What is read is a value of a text: with each amount of fuel, for values,
elements and members. -/
theorem isParsed_of_read (fuel : Nat) :
    (∀ text value rest, readValue fuel text = some (value, rest) ->
      IsParsed value) ∧
    (∀ text items rest, readElements fuel text = some (items, rest) ->
      AreData Number.IsRounded items) ∧
    (∀ text fields rest, readMembers fuel text = some (fields, rest) ->
      MembersAreData Number.IsRounded fields) := by
  induction fuel with
  | zero =>
      refine ⟨?_, ?_, ?_⟩
      · rintro text value rest ⟨⟩
      · rintro text items rest ⟨⟩
      · rintro text fields rest ⟨⟩
  | succ fuel inductionHypothesis =>
      obtain ⟨values, elements, members⟩ := inductionHypothesis
      exact ⟨fun _ _ _ => isParsed_of_readValue_succ elements members,
        fun _ _ _ => areParsed_of_readElements_succ values elements,
        fun _ _ _ => membersAreParsed_of_readMembers_succ values members⟩

/-- A text parses to a value of a text. -/
theorem isParsed_of_parseText
    {text : String}
    {value : Value}
    (parsed : parseText text = .ok value) :
    IsParsed value := by
  unfold parseText at parsed
  split at parsed
  · rename_i read
    split at parsed
    · cases parsed
      exact (isParsed_of_read _).1 _ _ _ read
    · cases parsed
  · cases parsed

/-! ## Round trips -/

/-- The text of a JSON value parses to the value. -/
theorem parseText_writeValue
    {value : Value}
    (isJson : IsJson value) :
    parseText (String.ofList (writeValue value)) = .ok value := by
  have read := readValue_writeValue value isJson
    ((writeValue value).length + 1) (Nat.lt_succ_self _) [] (by rintro c ⟨⟩)
  rw [List.append_nil] at read
  rw [parseText, String.toList_ofList, read]
  rfl

/-- A double is written as itself. -/
theorem numberData_of_isDouble
    {value : ℚ}
    (isDouble : Number.IsDouble value) :
    numberData (.finite value) = .number (.finite value) := by
  unfold numberData
  dsimp only
  rw [Number.ofRational_eq_of_isDouble isDouble]

/-- What is written for a number is finite. -/
theorem isJson_numberData (number : Number) : IsJson (numberData number) := by
  unfold numberData
  split
  · split
    · rename_i rounds
      exact Number.isDouble_of_ofRational rounds
    · trivial
  · trivial

mutual

/-- What is written is a JSON value. -/
theorem isJson_jsonData : (value : Value) -> IsJson (jsonData value)
  | .undefined => trivial
  | .null => trivial
  | .boolean _ => trivial
  | .number value => isJson_numberData value
  | .bigint _ => trivial
  | .string _ => trivial
  | .array items => areJson_elementData items
  | .object fields =>
      isData_object_foldl_assign List.Pairwise.nil trivial
        (membersAreJson_memberData fields)

@[inherit_doc isJson_jsonData]
theorem areJson_elementData : (items : List Value) ->
    AreData Number.IsFinite (elementData items)
  | [] => trivial
  | item :: items => ⟨isJson_jsonData item, areJson_elementData items⟩

@[inherit_doc isJson_jsonData]
theorem membersAreJson_memberData : (fields : List (String × Value)) ->
    MembersAreData Number.IsFinite (memberData fields)
  | [] => trivial
  | (name, value) :: fields => by
      have first := isJson_jsonData value
      have rest := membersAreJson_memberData fields
      cases value with
      | undefined => exact rest
      | _ => exact ⟨first, rest⟩

end

/-- **Round trip.**  What `JSON.stringify` writes with the replacer parses to
what it has written. -/
theorem parseText_stringifyReplaced (value : Value) :
    parseText (stringifyReplaced value) = .ok (jsonData value) :=
  parseText_writeValue (isJson_jsonData value)

mutual

/-- A value of a text has no big integers. -/
theorem hasBigInt_of_isParsed : (value : Value) -> IsParsed value ->
    hasBigInt value = false
  | .null, _ => rfl
  | .boolean _, _ => rfl
  | .number _, _ => rfl
  | .string _, _ => rfl
  | .array items, isParsed => anyHasBigInt_of_areParsed items isParsed
  | .object fields, isParsed => memberHasBigInt_of_areParsed fields isParsed.2

@[inherit_doc hasBigInt_of_isParsed]
theorem anyHasBigInt_of_areParsed : (items : List Value) ->
    AreData Number.IsRounded items -> anyHasBigInt items = false
  | [], _ => rfl
  | item :: items, areParsed => by
      rw [anyHasBigInt, hasBigInt_of_isParsed item areParsed.1,
        anyHasBigInt_of_areParsed items areParsed.2, Bool.or_false]

@[inherit_doc hasBigInt_of_isParsed]
theorem memberHasBigInt_of_areParsed : (fields : List (String × Value)) ->
    MembersAreData Number.IsRounded fields -> memberHasBigInt fields = false
  | [], _ => rfl
  | (_, value) :: fields, areParsed => by
      rw [memberHasBigInt, hasBigInt_of_isParsed value areParsed.1,
        memberHasBigInt_of_areParsed fields areParsed.2, Bool.or_false]

end

theorem hasBigInt_of_isJson
    (value : Value)
    (isJson : IsJson value) :
    hasBigInt value = false :=
  hasBigInt_of_isParsed value (isParsed_of_isJson value isJson)

/-- There is a text for every value of a text. -/
theorem stringifyValue_of_isParsed
    {value : Value}
    (isParsed : IsParsed value) :
    stringifyValue value = .ok (stringifyReplaced value) := by
  rw [stringifyValue, hasBigInt_of_isParsed value isParsed]
  rfl

/-- There is a text for every JSON value. -/
theorem stringifyValue_of_isJson
    {value : Value}
    (isJson : IsJson value) :
    stringifyValue value = .ok (stringifyReplaced value) :=
  stringifyValue_of_isParsed (isParsed_of_isJson value isJson)

mutual

/-- A JSON value is written as it is. -/
theorem jsonData_of_isJson : (value : Value) -> IsJson value ->
    jsonData value = value
  | .null, _ => rfl
  | .boolean _, _ => rfl
  | .number (.finite value), isDouble => by
      rw [jsonData, numberData_of_isDouble isDouble]
  | .string _, _ => rfl
  | .array items, isJson => by
      rw [jsonData, elementData_of_areJson items isJson]
  | .object fields, isJson => by
      have own := foldl_assign fields [] isJson.1
      rw [jsonData, memberData_of_areJson fields isJson.2, own,
        List.nil_append]

@[inherit_doc jsonData_of_isJson]
theorem elementData_of_areJson : (items : List Value) ->
    AreData Number.IsFinite items -> elementData items = items
  | [], _ => rfl
  | item :: items, areJson => by
      rw [elementData, jsonData_of_isJson item areJson.1,
        elementData_of_areJson items areJson.2]

@[inherit_doc jsonData_of_isJson]
theorem memberData_of_areJson : (fields : List (String × Value)) ->
    MembersAreData Number.IsFinite fields -> memberData fields = fields
  | [], _ => rfl
  | (name, value) :: fields, areJson => by
      have first := jsonData_of_isJson value areJson.1
      have rest := memberData_of_areJson fields areJson.2
      cases value with
      | undefined => exact areJson.1.elim
      | _ => rw [memberData, first, rest]; simp

end

/-- Only JSON values are written as they are. -/
theorem jsonData_eq_self_iff (value : Value) :
    jsonData value = value ↔ IsJson value :=
  ⟨fun same => same ▸ isJson_jsonData value, jsonData_of_isJson value⟩

/-- **Round trip.**  The text of a JSON value parses to the value. -/
theorem parseText_stringifyValue
    {value : Value}
    (isJson : IsJson value)
    {text : String}
    (written : stringifyValue value = .ok text) :
    parseText text = .ok value := by
  rw [stringifyValue_of_isJson isJson] at written
  cases written
  rw [parseText_stringifyReplaced, jsonData_of_isJson value isJson]

/-- **Round trip.**  Reading the text of an object with string properties gives
the object back. -/
theorem parseText_stringifyStrings
    (fields : List (String × String))
    (own : IsOwn fields) :
    parseText (stringifyStrings fields) =
      .ok (.object (fields.map fun field => (field.1, .string field.2))) := by
  have isJson : IsJson
      (.object (fields.map fun field => (field.1, .string field.2))) := by
    refine ⟨?_, (membersAreData_iff _).mpr ?_⟩
    · unfold IsOwn
      rw [List.map_map]
      exact own
    intro field member
    obtain ⟨_, _, rfl⟩ := List.mem_map.mp member
    trivial
  rw [stringifyStrings, parseText_stringifyReplaced,
    jsonData_of_isJson _ isJson]

/-- The text of an object starts with its brace. -/
theorem exists_stringifyStrings_eq (fields : List (String × String)) :
    ∃ rest, (stringifyStrings fields).toList = leftBrace :: rest := by
  rw [stringifyStrings, stringifyReplaced, String.toList_ofList]
  exact ⟨_, rfl⟩

end JSON
end JavaScript
end Foundation
