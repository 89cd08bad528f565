import Privachain.Foundation.JsonNumbers
import Mathlib.Data.List.Nodup

/-!
# JSON texts

The quotation of strings, and the reading of texts by `JSON.parse`.  Quoted
strings are read back.
-/

namespace Foundation
namespace JavaScript
namespace JSON

/-! ## Quotation -/

/-- The quotation mark. -/
def quotationMark : Char := Char.ofNat 0x22

/-- The reverse solidus, which starts an escape. -/
def reverseSolidus : Char := Char.ofNat 0x5C

/-- The braces of objects. -/
def leftBrace : Char := Char.ofNat 0x7B

@[inherit_doc leftBrace]
def rightBrace : Char := Char.ofNat 0x7D

/-- The characters with an escape of two characters, with the second one. -/
def shortEscapes : List (Char × Char) :=
  [(quotationMark, quotationMark), (reverseSolidus, reverseSolidus),
    (Char.ofNat 8, 'b'), (Char.ofNat 9, 't'), (Char.ofNat 10, 'n'),
    (Char.ofNat 12, 'f'), (Char.ofNat 13, 'r')]

/-- The escape of a code unit by its four hex digits. -/
def unicodeEscape (unit : Nat) : List Char :=
  [reverseSolidus, 'u', Nat.digitChar (unit / 0x1000),
    Nat.digitChar (unit / 0x100 % 16), Nat.digitChar (unit / 16 % 16),
    Nat.digitChar (unit % 16)]

/-- A character of a string as it is written: other control characters and the
halves of surrogate pairs that stand alone are written by their code. -/
def escape (alone : Bool) (c : Char) : List Char :=
  match shortEscapes.lookup c with
  | some letter => [reverseSolidus, letter]
  | none =>
      if c.toNat < 32 then unicodeEscape c.toNat
      else if alone then unicodeEscape (c.toNat - 0x102000)
      else [c]

/-- The character is one half of a surrogate pair without the other one before
or behind it. -/
def isAlone (afterHigh : Bool) (c : Char) (next : Option Char) : Bool :=
  (isHighSurrogate c && !next.any isLowSurrogate) ||
    (isLowSurrogate c && !afterHigh)

/-- The characters of a string as they are written, behind a character. -/
def escapeFrom (afterHigh : Bool) : List Char -> List Char
  | [] => []
  | c :: text =>
      escape (isAlone afterHigh c text.head?) c ++
        escapeFrom (isHighSurrogate c) text

/-- `QuoteJSONString(text)` -/
def quote (text : String) : List Char :=
  quotationMark :: escapeFrom false text.toList ++ [quotationMark]

/-! ## Reading -/

/-- Skip white space. -/
def skipSpace (text : List Char) : List Char :=
  text.dropWhile fun c => [9, 10, 13, 32].contains c.toNat

/-- The character of a short escape; the solidus may be escaped too. -/
def unescape (letter : Char) : Option Char :=
  ((shortEscapes.map Prod.swap) ++ [('/', '/')]).lookup letter

/-- The code unit with a code of four hex digits. -/
def unescapeCode (a b c d : Char) : Option Char :=
  (digitsValue 16 0 [a, b, c, d]).map charOfUnit

/-- Put a character in front of the string that is read. -/
def prepend (c : Char) (read : List Char × List Char) : List Char × List Char :=
  (c :: read.1, read.2)

/-- Put a code unit that is read from its code in front of the string.  With the
second half of its pair behind it, it is one character. -/
def prependUnit
    (c : Char)
    (read : List Char × List Char) : List Char × List Char :=
  match read.1 with
  | low :: text =>
      if isHighSurrogate c && isLowSurrogate low &&
          (pairedChar c low).toNat < 0x10F800 then
        (pairedChar c low :: text, read.2)
      else prepend c read
  | [] => prepend c read

/-- Read a string after its opening quotation mark. -/
def readChars : List Char -> Option (List Char × List Char)
  | [] => none
  | c :: text =>
      if c = quotationMark then some ([], text)
      else if c = reverseSolidus then
        match text with
        | 'u' :: a :: b :: c :: d :: text => do
            let char ← unescapeCode a b c d
            return prependUnit char (← readChars text)
        | letter :: text => do
            let char ← unescape letter
            return prepend char (← readChars text)
        | [] => none
      else if c.toNat < 32 then none
      else (readChars text).map (prepend c)

/-- Read one of the literals, or a number. -/
def readLiteral (text : List Char) : Option (Value × List Char) :=
  if "null".toList.isPrefixOf text then some (.null, text.drop 4)
  else if "true".toList.isPrefixOf text then some (.boolean true, text.drop 4)
  else if "false".toList.isPrefixOf text then some (.boolean false, text.drop 5)
  else readNumber text

/-- The array index that a property name is. -/
def arrayIndex (name : String) : Option Nat :=
  let index := Nat.ofDigitChars 10 name.toList 0
  if index.repr = name ∧ index < 4294967295 then some index else none

/-- The order of the own properties of an object: array indices come first, in
ascending order, and the other names as they were set. -/
def precedes (earlier later : String) : Bool :=
  match arrayIndex earlier, arrayIndex later with
  | some index, some other => decide (index < other)
  | some _, none => true
  | none, some _ => false
  | none, none => earlier != later

/-- The own properties after one is set: an earlier one with its name gets its
value, and otherwise it gets its place in the order. -/
def assign
    (fields : List (String × Value))
    (field : String × Value) : List (String × Value) :=
  if (fields.lookup field.1).isSome then
    fields.map fun earlier => if earlier.1 = field.1 then field else earlier
  else
    fields.takeWhile (fun earlier => precedes earlier.1 field.1) ++ field ::
      fields.dropWhile fun earlier => precedes earlier.1 field.1

mutual

/-- Read a value.  The fuel bounds the nesting and the number of elements. -/
def readValue : Nat -> List Char -> Option (Value × List Char)
  | 0, _ => none
  | fuel + 1, text =>
      match skipSpace text with
      | [] => none
      | c :: text =>
          if c = quotationMark then do
            let (string, rest) ← readChars text
            return (.string (String.ofList string), rest)
          else if c = leftBrace then
            if (skipSpace text).head? = some rightBrace then
              some (.object [], (skipSpace text).drop 1)
            else do
              let (fields, rest) ← readMembers fuel text
              return (.object (fields.foldl assign []), rest)
          else if c = '[' then
            if (skipSpace text).head? = some ']' then
              some (.array [], (skipSpace text).drop 1)
            else do
              let (items, rest) ← readElements fuel text
              return (.array items, rest)
          else readLiteral (c :: text)

/-- Read the elements of an array and its closing bracket. -/
def readElements : Nat -> List Char -> Option (List Value × List Char)
  | 0, _ => none
  | fuel + 1, text => do
      let (value, rest) ← readValue fuel text
      match skipSpace rest with
      | ',' :: rest =>
          let (values, rest) ← readElements fuel rest
          return (value :: values, rest)
      | ']' :: rest => return ([value], rest)
      | _ => none

/-- Read the members of an object and its closing brace. -/
def readMembers : Nat -> List Char -> Option (List (String × Value) × List Char)
  | 0, _ => none
  | fuel + 1, text =>
      match skipSpace text with
      | [] => none
      | c :: text =>
          if c = quotationMark then do
            let (name, rest) ← readChars text
            match skipSpace rest with
            | ':' :: rest =>
                let (value, rest) ← readValue fuel rest
                match skipSpace rest with
                | [] => none
                | c :: rest =>
                    if c = ',' then do
                      let (fields, rest) ← readMembers fuel rest
                      return ((String.ofList name, value) :: fields, rest)
                    else if c = rightBrace then
                      return ([(String.ofList name, value)], rest)
                    else none
            | _ => none
          else none

end

/-- `JSON.parse(text)` on the characters of the text. -/
def parseText (text : String) : Except Exception Value :=
  match readValue (text.toList.length + 1) text.toList with
  | some (value, rest) =>
      if skipSpace rest = [] then .ok value
      else .error (.syntaxError "Unexpected non-whitespace character after JSON")
  | none => .error (.syntaxError "Unexpected token in JSON")

/-! ## Reading inverts quotation -/

/-- A short escape is read as the character that it stands for. -/
theorem unescape_of_lookup
    {c letter : Char}
    (escaped : shortEscapes.lookup c = some letter) :
    letter ≠ 'u' ∧ unescape letter = some c := by
  have each : ∀ pair ∈ shortEscapes,
      pair.2 ≠ 'u' ∧ unescape pair.2 = some pair.1 := by decide
  obtain ⟨earlier, later, split, -⟩ := List.lookup_eq_some_iff.mp escaped
  exact each (c, letter) (by rw [split]; simp)

/-- The hex digits of a code unit are read as the unit. -/
theorem digitsValue_hex
    {unit : Nat}
    (bits : unit < 0x10000) :
    digitsValue 16 0 [Nat.digitChar (unit / 0x1000),
        Nat.digitChar (unit / 0x100 % 16), Nat.digitChar (unit / 16 % 16),
        Nat.digitChar (unit % 16)] = some unit := by
  have each : ∀ digit : Fin 16,
      digitValue 16 (Nat.digitChar digit.val) = some digit.val := by
    decide
  have read : ∀ digit : Nat, digit < 16 ->
      digitValue 16 (Nat.digitChar digit) = some digit :=
    fun digit small => each ⟨digit, small⟩
  simp only [digitsValue, read (unit / 0x1000) (by omega),
    read (unit / 0x100 % 16) (by omega), read (unit / 16 % 16) (by omega),
    read (unit % 16) (by omega)]
  exact congrArg some (by omega)

/-- A control character stands for itself. -/
theorem charOfUnit_of_control
    {c : Char}
    (control : c.toNat < 32) :
    charOfUnit c.toNat = c := by
  rw [charOfUnit, if_neg (by omega), Char.ofNat_toNat]

/-- The characters of a private plane stand for the halves of surrogate pairs. -/
theorem charOfUnit_of_isAlone
    {afterHigh : Bool}
    {c : Char}
    {next : Option Char}
    (alone : isAlone afterHigh c next = true) :
    charOfUnit (c.toNat - 0x102000) = c ∧ c.toNat - 0x102000 < 0x10000 := by
  have half : 0x10F800 ≤ c.toNat := by
    simp only [isAlone, isHighSurrogate, isLowSurrogate, Bool.or_eq_true,
      Bool.and_eq_true, decide_eq_true_eq] at alone
    omega
  have most : c.toNat < 0x110000 := by
    rcases c.valid with low | high
    · exact Nat.lt_trans low (by decide)
    · exact high.2
  have same : 0x102000 + (c.toNat - 0x102000) = c.toNat := by omega
  refine ⟨?_, by omega⟩
  rw [charOfUnit, if_pos (by omega), same, Char.ofNat_toNat]

/-- A short escape is read by its letter. -/
theorem readChars_letter
    {letter : Char}
    (notCode : letter ≠ 'u')
    (text : List Char) :
    readChars (reverseSolidus :: letter :: text) = (do
      let char ← unescape letter
      return prepend char (← readChars text)) := by
  rw [readChars, if_neg (by decide), if_pos rfl]
  rintro _ _ _ _ _ same
  exact absurd same notCode

/-- A code unit is read by its code. -/
theorem readChars_unicodeEscape
    {unit : Nat}
    (bits : unit < 0x10000)
    (text : List Char) :
    readChars (unicodeEscape unit ++ text) =
      (readChars text).map (prependUnit (charOfUnit unit)) := by
  have notQuotation : reverseSolidus ≠ quotationMark := by decide
  rw [unicodeEscape]
  simp only [List.cons_append, List.nil_append]
  rw [readChars.eq_def]
  simp only [if_neg notQuotation, if_pos, unescapeCode, digitsValue_hex bits]
  cases readChars text with
  | none => rfl
  | some read => rfl

/-- Without the other half of its pair behind it, a code unit is a character. -/
theorem prependUnit_eq_prepend
    {c : Char}
    {read : List Char × List Char}
    (notPaired : isHighSurrogate c = true ->
      read.1.head?.any isLowSurrogate = false) :
    prependUnit c read = prepend c read := by
  unfold prependUnit
  cases chars : read.1 with
  | nil => rfl
  | cons low text =>
      refine if_neg fun paired => ?_
      simp only [Bool.and_eq_true] at paired
      have notLow := notPaired paired.1.1
      rw [chars, List.head?_cons, Option.any_some, paired.1.2] at notLow
      cases notLow

/-- A half that stands alone has not the other one behind it. -/
theorem notPaired_of_isAlone
    {afterHigh : Bool}
    {c : Char}
    {next : Option Char}
    (alone : isAlone afterHigh c next = true)
    (high : isHighSurrogate c = true) :
    next.any isLowSurrogate = false := by
  have notLow : isLowSurrogate c = false := by
    simp only [isHighSurrogate, isLowSurrogate, Bool.and_eq_true,
      decide_eq_true_eq, decide_eq_false_iff_not] at high ⊢
    omega
  simpa [isAlone, high, notLow] using alone

/-- Reading takes an escaped character off the text. -/
theorem readChars_escape
    {alone : Bool}
    {c : Char}
    (half : alone = true ->
      charOfUnit (c.toNat - 0x102000) = c ∧ c.toNat - 0x102000 < 0x10000)
    {text : List Char}
    {read : List Char × List Char}
    (reads : readChars text = some read)
    (notPaired : alone = true -> isHighSurrogate c = true ->
      read.1.head?.any isLowSurrogate = false) :
    readChars (escape alone c ++ text) = some (prepend c read) := by
  unfold escape
  cases escaped : shortEscapes.lookup c with
  | some letter =>
      obtain ⟨notCode, unescapes⟩ := unescape_of_lookup escaped
      rw [List.cons_append, List.singleton_append, readChars_letter notCode,
        unescapes, reads]
      rfl
  | none =>
      by_cases control : c.toNat < 32
      · have notHigh : ¬isHighSurrogate c = true := by
          simp only [isHighSurrogate, Bool.and_eq_true, decide_eq_true_eq]
          omega
        rw [if_pos control, readChars_unicodeEscape (by omega),
          charOfUnit_of_control control, reads, Option.map_some,
          prependUnit_eq_prepend fun high => absurd high notHigh]
      · rw [if_neg control]
        cases alone with
        | true =>
            obtain ⟨standsFor, bits⟩ := half rfl
            rw [if_pos rfl, readChars_unicodeEscape bits, standsFor, reads,
              Option.map_some, prependUnit_eq_prepend (notPaired rfl)]
        | false =>
            have absent := List.lookup_eq_none_iff.mp escaped
            have notQuotation : c ≠ quotationMark := by
              simpa using absent (quotationMark, quotationMark) (by decide)
            have notSolidus : c ≠ reverseSolidus := by
              simpa using absent (reverseSolidus, reverseSolidus) (by decide)
            rw [if_neg Bool.false_ne_true, List.singleton_append,
              readChars.eq_def]
            simp only [if_neg notQuotation, if_neg notSolidus, if_neg control,
              reads, Option.map_some]

/-- A quoted text is read back. -/
theorem readChars_quoted (afterHigh : Bool) (text rest : List Char) :
    readChars (escapeFrom afterHigh text ++ quotationMark :: rest) =
      some (text, rest) := by
  induction text generalizing afterHigh with
  | nil =>
      rw [escapeFrom, List.nil_append, readChars.eq_def]
      exact if_pos rfl
  | cons c text inductionHypothesis =>
      rw [escapeFrom, List.append_assoc]
      exact readChars_escape charOfUnit_of_isAlone
        (inductionHypothesis (isHighSurrogate c)) notPaired_of_isAlone

/-- Text that starts with a character other than white space is not skipped. -/
theorem skipSpace_cons
    {c : Char}
    (notSpace : [9, 10, 13, 32].contains c.toNat = false)
    (text : List Char) :
    skipSpace (c :: text) = c :: text := by
  rw [skipSpace, List.dropWhile_cons, notSpace]
  rfl

/-- A quoted string is read as a value. -/
theorem readValue_quote (fuel : Nat) (text : String) (rest : List Char) :
    readValue (fuel + 1) (quote text ++ rest) =
      some (.string text, rest) := by
  have start : quote text ++ rest =
      quotationMark :: (escapeFrom false text.toList ++
        quotationMark :: rest) := by
    simp [quote]
  rw [start, readValue, skipSpace_cons (by decide)]
  simp only [if_pos, readChars_quoted]
  simp

/-- A member is read up to what follows it. -/
theorem readMembers_member
    (fuel : Nat)
    (name : String)
    {value : Value}
    {text rest : List Char}
    {c : Char}
    (read : readValue fuel (text ++ c :: rest) = some (value, c :: rest))
    (notSpace : [9, 10, 13, 32].contains c.toNat = false) :
    readMembers (fuel + 1) (quote name ++ ':' :: (text ++ c :: rest)) =
      if c = ',' then do
        let (fields, rest) ← readMembers fuel rest
        return ((name, value) :: fields, rest)
      else if c = rightBrace then some ([(name, value)], rest)
      else none := by
  have start : quote name ++ ':' :: (text ++ c :: rest) =
      quotationMark :: (escapeFrom false name.toList ++
        quotationMark :: ':' :: (text ++ c :: rest)) := by
    simp [quote]
  rw [start, readMembers, skipSpace_cons (by decide)]
  simp only [if_pos, readChars_quoted, Option.bind_eq_bind, Option.bind_some,
    skipSpace_cons (c := ':') (by decide), read, skipSpace_cons notSpace,
    String.ofList_toList]
  rfl

/-- There is no property under another name. -/
theorem lookup_of_notMem {α : Type}
    {fields : List (String × α)}
    {name : String}
    (notNamed : name ∉ fields.map Prod.fst) :
    fields.lookup name = none := by
  rw [List.lookup_eq_none_iff]
  intro field member
  rw [bne_iff_ne]
  rintro rfl
  exact notNamed (List.mem_map_of_mem member)

/-- A name that is not found names no property. -/
theorem notMem_of_lookup {α : Type}
    {fields : List (String × α)}
    {name : String}
    (notFound : fields.lookup name = none) :
    name ∉ fields.map Prod.fst := by
  intro named
  obtain ⟨field, member, same⟩ := List.mem_map.mp named
  have different := List.lookup_eq_none_iff.mp notFound field member
  simp [same] at different

/-! ## The order of properties -/

/-- The properties have different names and stand in the order of an object. -/
def IsOwn {α : Type} (fields : List (String × α)) : Prop :=
  (fields.map Prod.fst).Pairwise fun earlier later => precedes earlier later

/-- An array index is the decimal text of the index. -/
theorem repr_of_arrayIndex
    {name : String}
    {index : Nat}
    (isIndex : arrayIndex name = some index) :
    index.repr = name := by
  unfold arrayIndex at isIndex
  dsimp only at isIndex
  split at isIndex
  · rename_i canonical
    cases isIndex
    exact canonical.1
  · cases isIndex

theorem ne_of_precedes
    {earlier later : String}
    (before : precedes earlier later = true) :
    earlier ≠ later := by
  rintro rfl
  unfold precedes at before
  cases isIndex : arrayIndex earlier with
  | none => simp [isIndex] at before
  | some index => simp [isIndex] at before

/-- A name that is no index comes behind every other one. -/
theorem precedes_of_arrayIndex_eq_none
    {earlier later : String}
    (noIndex : arrayIndex later = none)
    (different : earlier ≠ later) :
    precedes earlier later = true := by
  unfold precedes
  rw [noIndex]
  cases arrayIndex earlier with
  | none => exact bne_iff_ne.mpr different
  | some index => rfl

/-- Of two different names one comes before the other. -/
theorem precedes_of_not_precedes
    {earlier later : String}
    (notBefore : ¬precedes earlier later = true)
    (different : earlier ≠ later) :
    precedes later earlier = true := by
  cases laterIndex : arrayIndex later with
  | none =>
      exact absurd (precedes_of_arrayIndex_eq_none laterIndex different)
        notBefore
  | some other =>
      cases earlierIndex : arrayIndex earlier with
      | none => exact precedes_of_arrayIndex_eq_none earlierIndex different.symm
      | some index =>
          have distinct : index ≠ other := by
            rintro rfl
            exact different ((repr_of_arrayIndex earlierIndex).symm.trans
              (repr_of_arrayIndex laterIndex))
          simp only [precedes, laterIndex, earlierIndex, decide_eq_true_eq]
            at notBefore ⊢
          omega

/-- What comes behind an index comes behind the indices before it. -/
theorem precedes_trans
    {first second third : String}
    {index : Nat}
    (isIndex : arrayIndex first = some index)
    (firstBefore : precedes first second = true)
    (secondBefore : precedes second third = true) :
    precedes first third = true := by
  unfold precedes at firstBefore secondBefore ⊢
  rw [isIndex] at firstBefore ⊢
  cases thirdIndex : arrayIndex third with
  | none => rfl
  | some last =>
      rw [thirdIndex] at secondBefore
      cases secondIndex : arrayIndex second with
      | none =>
          rw [secondIndex] at secondBefore
          cases secondBefore
      | some other =>
          rw [secondIndex] at firstBefore secondBefore
          simp only [decide_eq_true_eq] at firstBefore secondBefore ⊢
          omega

theorem IsOwn.nodup {α : Type}
    {fields : List (String × α)}
    (own : IsOwn fields) :
    (fields.map Prod.fst).Nodup :=
  own.imp ne_of_precedes

/-- The names decide the order. -/
theorem isOwn_of_names {α : Type}
    {fields : List (String × α)}
    (names : List String)
    (named : fields.map Prod.fst = names)
    (ordered : names.Pairwise fun earlier later => precedes earlier later) :
    IsOwn fields := by
  unfold IsOwn
  rw [named]
  exact ordered

theorem IsOwn.sublist {α : Type}
    {fields others : List (String × α)}
    (own : IsOwn fields)
    (sublist : others.Sublist fields) :
    IsOwn others :=
  List.Pairwise.sublist (sublist.map Prod.fst) own

/-! ## Setting properties -/

/-- A property with a new name gets its place. -/
theorem assign_of_notMem
    {fields : List (String × Value)}
    {field : String × Value}
    (absent : field.1 ∉ fields.map Prod.fst) :
    assign fields field =
      fields.takeWhile (fun earlier => precedes earlier.1 field.1) ++ field ::
        fields.dropWhile fun earlier => precedes earlier.1 field.1 := by
  rw [assign, lookup_of_notMem absent, if_neg (by simp)]

/-- A property with a new name is added. -/
theorem perm_assign_of_notMem
    {fields : List (String × Value)}
    {field : String × Value}
    (absent : field.1 ∉ fields.map Prod.fst) :
    (assign fields field).Perm (field :: fields) := by
  rw [assign_of_notMem absent]
  refine List.perm_middle.trans (List.Perm.cons _ ?_)
  rw [List.takeWhile_append_dropWhile]

/-- A property that comes behind all others comes last. -/
theorem assign_of_precedes
    {fields : List (String × Value)}
    {field : String × Value}
    (behind : ∀ earlier ∈ fields, precedes earlier.1 field.1 = true) :
    assign fields field = fields ++ [field] := by
  have absent : field.1 ∉ fields.map Prod.fst := by
    intro present
    obtain ⟨earlier, member, same⟩ := List.mem_map.mp present
    exact ne_of_precedes (behind earlier member) same
  rw [assign_of_notMem absent, List.takeWhile_eq_self_iff.mpr behind,
    List.dropWhile_eq_nil_iff.mpr behind]

/-- Setting a property that an object has keeps the names. -/
theorem map_fst_assign_of_mem
    {fields : List (String × Value)}
    {field : String × Value}
    (present : field.1 ∈ fields.map Prod.fst) :
    (assign fields field).map Prod.fst = fields.map Prod.fst := by
  unfold assign
  cases found : fields.lookup field.1 with
  | none => exact absurd present (notMem_of_lookup found)
  | some old =>
      rw [if_pos (by rfl), List.map_map]
      apply List.map_congr_left
      intro earlier _
      by_cases same : earlier.1 = field.1
      · simp [same]
      · simp [same]

/-- Setting a property keeps the names. -/
theorem mem_map_fst_assign_of_mem
    {fields : List (String × Value)}
    {name : String}
    (named : name ∈ fields.map Prod.fst)
    (field : String × Value) :
    name ∈ (assign fields field).map Prod.fst := by
  by_cases present : field.1 ∈ fields.map Prod.fst
  · rwa [map_fst_assign_of_mem present]
  · rw [((perm_assign_of_notMem present).map Prod.fst).mem_iff]
    exact List.mem_cons_of_mem _ named

/-- A property that is set is present. -/
theorem mem_map_fst_assign
    (fields : List (String × Value))
    (field : String × Value) :
    field.1 ∈ (assign fields field).map Prod.fst := by
  by_cases present : field.1 ∈ fields.map Prod.fst
  · rwa [map_fst_assign_of_mem present]
  · rw [((perm_assign_of_notMem present).map Prod.fst).mem_iff]
    exact List.mem_cons_self

/-- A new property comes before those behind its place. -/
theorem precedes_of_mem_dropWhile
    {fields : List (String × Value)}
    (own : IsOwn fields)
    {field : String × Value}
    (absent : field.1 ∉ fields.map Prod.fst)
    {later : String × Value}
    (member : later ∈
      fields.dropWhile fun earlier => precedes earlier.1 field.1) :
    precedes field.1 later.1 = true := by
  induction fields with
  | nil => cases member
  | cons first fields inductionHypothesis =>
      rw [List.map_cons, List.mem_cons, not_or] at absent
      obtain ⟨firstBefore, ownRest⟩ := List.pairwise_cons.mp own
      by_cases before : precedes first.1 field.1 = true
      · rw [List.dropWhile_cons, if_pos before] at member
        exact inductionHypothesis ownRest absent.2 member
      · rw [List.dropWhile_cons, if_neg before] at member
        have different : first.1 ≠ field.1 := Ne.symm absent.1
        have behind := precedes_of_not_precedes before different
        rcases List.mem_cons.mp member with rfl | inRest
        · exact behind
        · cases isIndex : arrayIndex field.1 with
          | none =>
              exact absurd (precedes_of_arrayIndex_eq_none isIndex different)
                before
          | some index =>
              exact precedes_trans isIndex behind
                (firstBefore later.1 (List.mem_map_of_mem inRest))

/-- Setting a property keeps the order. -/
theorem IsOwn.assign
    {fields : List (String × Value)}
    (own : IsOwn fields)
    (field : String × Value) :
    IsOwn (assign fields field) := by
  by_cases present : field.1 ∈ fields.map Prod.fst
  · unfold IsOwn
    rwa [map_fst_assign_of_mem present]
  · have split := own
    rw [← List.takeWhile_append_dropWhile
      (p := fun earlier => precedes earlier.1 field.1) (l := fields)] at split
    unfold IsOwn at split ⊢
    rw [List.map_append, List.pairwise_append] at split
    obtain ⟨before, behind, across⟩ := split
    rw [assign_of_notMem present, List.map_append, List.map_cons,
      List.pairwise_append, List.pairwise_cons]
    refine ⟨before, ⟨?_, behind⟩, ?_⟩
    · intro name named
      obtain ⟨later, member, rfl⟩ := List.mem_map.mp named
      exact precedes_of_mem_dropWhile own present member
    · intro name named other otherNamed
      rcases List.mem_cons.mp otherNamed with rfl | later
      · obtain ⟨earlier, member, rfl⟩ := List.mem_map.mp named
        have kept := List.mem_takeWhile_imp member
        exact kept
      · exact across name named other later

/-- Properties in their order are their own members. -/
theorem foldl_assign
    (fields earlier : List (String × Value))
    (own : IsOwn (earlier ++ fields)) :
    fields.foldl assign earlier = earlier ++ fields := by
  induction fields generalizing earlier with
  | nil => rw [List.foldl_nil, List.append_nil]
  | cons field fields inductionHypothesis =>
      have behind : ∀ other ∈ earlier, precedes other.1 field.1 = true := by
        unfold IsOwn at own
        rw [List.map_append, List.pairwise_append] at own
        intro other member
        exact own.2.2 _ (List.mem_map_of_mem member) _ List.mem_cons_self
      rw [List.foldl_cons, assign_of_precedes behind,
        inductionHypothesis _ (by simpa using own)]
      simp

end JSON
end JavaScript
end Foundation
