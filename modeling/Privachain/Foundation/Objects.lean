import Privachain.Foundation.JsonValues

/-!
# Properties and conversions of dynamic values

Reading, setting and spreading properties, and the conversions of values to
texts and to big integers.
-/

namespace Foundation
namespace JavaScript

/-! ## Properties -/

/-- The own property with a name; an absent one is `undefined`. -/
def propertyOf (value : Value) (name : String) : Value :=
  (value.property name).getD .undefined

/-- `value[name]`: only `undefined` and `null` have no properties. -/
def readProperty (value : Value) (name : String) : Except Exception Value :=
  match value with
  | .undefined => .error (.typeError "Cannot read properties of undefined")
  | .null => .error (.typeError "Cannot read properties of null")
  | value => .ok (propertyOf value name)

/-- Only `undefined` and `null` are nullish. -/
def isNullish : Value -> Bool
  | .undefined => true
  | .null => true
  | _ => false

/-- Every value that is not nullish has its properties. -/
theorem readProperty_eq_ok_iff
    (value property : Value)
    (name : String) :
    readProperty value name = .ok property ↔
      isNullish value = false ∧ property = propertyOf value name := by
  cases value with
  | undefined => simp [readProperty, isNullish]
  | null => simp [readProperty, isNullish]
  | _ => simp [readProperty, isNullish, eq_comm]

/-- `value === text` -/
def isText (value : Value) (text : String) : Bool :=
  match value with
  | .string actual => actual == text
  | _ => false

/-- The own properties that `...value` copies: those of an object, and one for
each element of an array or code unit of a string. -/
def ownFields : Value -> List (String × Value)
  | .object fields => fields
  | .array items => items.zipIdx.map fun item => (toString item.2, item.1)
  | .string text => (codeUnits text).zipIdx.map fun unit =>
      (toString unit.2, .string (String.singleton (charOfUnit unit.1)))
  | _ => []

/-- The value of an optional property. -/
def optionalValue {α : Type} (wrap : α -> Value) : Option α -> Value
  | none => .undefined
  | some value => wrap value

/-- `{ ...fields, ...updates }` -/
def spread (fields updates : List (String × Value)) :
    List (String × Value) :=
  updates.foldl JSON.assign fields

/-- The decimal text of a small number is an array index. -/
theorem arrayIndex_repr (index : Nat) :
    JSON.arrayIndex index.repr =
      if index < 4294967295 then some index else none := by
  unfold JSON.arrayIndex
  rw [Nat.toList_repr, Nat.ofDigitChars_ten_toDigits]
  simp

/-- The names of the elements of an array stand in their order. -/
theorem precedes_repr
    {index other : Nat}
    (less : index < other) :
    JSON.precedes index.repr other.repr = true := by
  have different : index.repr ≠ other.repr := by
    intro same
    have read := congrArg stringToBigInt same
    rw [stringToBigInt_repr, stringToBigInt_repr, Option.some.injEq] at read
    exact less.ne (Int.ofNat.inj read)
  cases otherIndex : JSON.arrayIndex other.repr with
  | none => exact JSON.precedes_of_arrayIndex_eq_none otherIndex different
  | some found =>
      rw [arrayIndex_repr] at otherIndex
      split at otherIndex
      · rename_i small
        simp [JSON.precedes, arrayIndex_repr, small, less.trans small, less]
      · cases otherIndex

/-- The properties of an array stand in their order. -/
theorem isOwn_indexNames {α : Type} (items : List α) (wrap : α -> Value) :
    JSON.IsOwn (items.zipIdx.map fun item => (toString item.2, wrap item.1)) := by
  have names : ((items.zipIdx.map fun item => (toString item.2, wrap item.1)).map
      Prod.fst) = (items.zipIdx.map Prod.snd).map Nat.repr := by
    rw [List.map_map, List.map_map]
    rfl
  unfold JSON.IsOwn
  rw [names, List.zipIdx_map_snd, List.pairwise_map]
  have ascending : (List.range' 0 items.length).Pairwise (· < ·) :=
    List.pairwise_lt_range'
  exact ascending.imp precedes_repr

/-- The own properties of a value of a text stand in their order. -/
theorem isOwn_ownFields
    {numbers : Number -> Prop}
    {value : Value}
    (isData : JSON.IsData numbers value) :
    JSON.IsOwn (ownFields value) := by
  cases value with
  | object fields => exact isData.1
  | array items => exact isOwn_indexNames items id
  | string text =>
      exact isOwn_indexNames (codeUnits text) fun unit =>
        Value.string (String.singleton (charOfUnit unit))
  | _ => exact List.Pairwise.nil

/-- The own properties of a value of a text are values of the text. -/
theorem isData_of_mem_ownFields
    {numbers : Number -> Prop}
    {value : Value}
    (isData : JSON.IsData numbers value)
    {field : String × Value}
    (member : field ∈ ownFields value) :
    JSON.IsData numbers field.2 := by
  cases value with
  | object fields => exact (JSON.membersAreData_iff fields).mp isData.2 _ member
  | array items =>
      obtain ⟨item, isItem, rfl⟩ := List.mem_map.mp member
      exact (JSON.areData_iff items).mp isData _
        (List.fst_mem_of_mem_zipIdx isItem)
  | string text =>
      obtain ⟨item, _, rfl⟩ := List.mem_map.mp member
      trivial
  | _ => cases member

/-- The first property with a name counts. -/
theorem lookup_cons_field {α : Type}
    (field : String × α)
    (fields : List (String × α))
    (name : String) :
    (field :: fields).lookup name =
      if name = field.1 then some field.2 else fields.lookup name := by
  obtain ⟨fieldName, value⟩ := field
  by_cases same : name = fieldName
  · rw [if_pos same, List.lookup_cons, beq_iff_eq.mpr same]
  · rw [if_neg same, List.lookup_cons, beq_eq_false_iff_ne.mpr same]

/-- Replacing the property of one name in all places. -/
theorem lookup_replaced
    (fields : List (String × Value))
    (field : String × Value)
    (name : String) :
    (fields.map fun earlier =>
        if earlier.1 = field.1 then field else earlier).lookup name =
      if name = field.1 then (fields.lookup name).map fun _ => field.2
      else fields.lookup name := by
  induction fields with
  | nil => simp
  | cons earlier fields inductionHypothesis =>
      rw [List.map_cons, lookup_cons_field, lookup_cons_field,
        inductionHypothesis]
      by_cases replaced : earlier.1 = field.1
      · rw [if_pos replaced, replaced]
        by_cases same : name = field.1
        · simp [same]
        · simp [same]
      · rw [if_neg replaced]
        by_cases same : name = earlier.1
        · simp [same, replaced]
        · simp [same]

/-- Setting a property changes this property only. -/
theorem lookup_assign
    (fields : List (String × Value))
    (field : String × Value)
    (name : String) :
    (JSON.assign fields field).lookup name =
      if name = field.1 then some field.2 else fields.lookup name := by
  unfold JSON.assign
  cases present : fields.lookup field.1 with
  | none =>
      rw [if_neg (by decide), List.lookup_append, lookup_cons_field]
      by_cases same : name = field.1
      · have notBefore : (fields.takeWhile fun earlier =>
            JSON.precedes earlier.1 field.1).lookup name = none := by
          apply JSON.lookup_of_notMem
          rw [same]
          exact fun before => JSON.notMem_of_lookup present
            (((List.takeWhile_sublist _).map Prod.fst).subset before)
        rw [notBefore, if_pos same, if_pos same, Option.none_or]
      · rw [if_neg same, if_neg same, ← List.lookup_append,
          List.takeWhile_append_dropWhile]
  | some old =>
      rw [if_pos (by rfl), lookup_replaced]
      by_cases same : name = field.1
      · rw [if_pos same, if_pos same, same, present]
        rfl
      · rw [if_neg same, if_neg same]

/-- Reading a property after one is set. -/
theorem propertyOf_assign
    (fields : List (String × Value))
    (field : String × Value)
    (name : String) :
    propertyOf (.object (JSON.assign fields field)) name =
      if name = field.1 then field.2 else propertyOf (.object fields) name := by
  rw [propertyOf, Value.property, lookup_assign]
  split
  · rfl
  · rfl

/-- A property of an object with different names is the one with its name. -/
theorem lookup_of_mem
    {fields : List (String × Value)}
    (distinct : (fields.map Prod.fst).Nodup)
    {field : String × Value}
    (member : field ∈ fields) :
    fields.lookup field.1 = some field.2 := by
  induction fields with
  | nil => cases member
  | cons first fields inductionHypothesis =>
      obtain ⟨notLater, laterDistinct⟩ := List.nodup_cons.mp distinct
      rw [lookup_cons_field]
      rcases List.mem_cons.mp member with rfl | later
      · exact if_pos rfl
      · have different : field.1 ≠ first.1 := by
          intro same
          apply notLater
          rw [← same]
          exact List.mem_map_of_mem later
        rw [if_neg different]
        exact inductionHypothesis laterDistinct later

/-- Changing the values of all properties changes the value that is found. -/
theorem lookup_map_values
    (change : Value -> Value)
    (fields : List (String × Value))
    (name : String) :
    (fields.map fun field => (field.1, change field.2)).lookup name =
      (fields.lookup name).map change := by
  induction fields with
  | nil => rfl
  | cons field fields inductionHypothesis =>
      rw [List.map_cons, lookup_cons_field, lookup_cons_field,
        inductionHypothesis]
      split
      · rfl
      · rfl

/-- A property that is found is one of the object. -/
theorem mem_of_lookup
    {fields : List (String × Value)}
    {name : String}
    {value : Value}
    (found : fields.lookup name = some value) :
    (name, value) ∈ fields := by
  obtain ⟨before, after, rfl, _⟩ := List.lookup_eq_some_iff.mp found
  exact List.mem_append_right _ List.mem_cons_self

/-- After a spread the last update of a name counts, then the earlier property. -/
theorem lookup_spread
    (fields updates : List (String × Value))
    (name : String) :
    (spread fields updates).lookup name =
      (updates.reverse.lookup name).or (fields.lookup name) := by
  induction updates generalizing fields with
  | nil => rfl
  | cons update updates inductionHypothesis =>
      have rest := inductionHypothesis (JSON.assign fields update)
      rw [lookup_assign] at rest
      rw [List.reverse_cons, List.lookup_append, lookup_cons_field,
        Option.or_assoc]
      refine rest.trans ?_
      split
      · rfl
      · rfl

/-- A spread keeps the properties that it does not name. -/
theorem lookup_spread_of_notMem
    (fields updates : List (String × Value))
    {name : String}
    (notNamed : name ∉ updates.map Prod.fst) :
    (spread fields updates).lookup name = fields.lookup name := by
  have absent : updates.reverse.lookup name = none := by
    apply JSON.lookup_of_notMem
    rw [List.map_reverse, List.mem_reverse]
    exact notNamed
  rw [lookup_spread, absent, Option.none_or]

/-- Spreading over properties that an object has keeps the names. -/
theorem map_fst_spread_of_mem
    {fields updates : List (String × Value)}
    (present : ∀ update ∈ updates, update.1 ∈ fields.map Prod.fst) :
    (spread fields updates).map Prod.fst = fields.map Prod.fst := by
  induction updates generalizing fields with
  | nil => rfl
  | cons update updates inductionHypothesis =>
      have first := JSON.map_fst_assign_of_mem (present update List.mem_cons_self)
      have rest : (spread (JSON.assign fields update) updates).map Prod.fst =
          (JSON.assign fields update).map Prod.fst := by
        apply inductionHypothesis
        intro later member
        rw [first]
        exact present later (List.mem_cons_of_mem _ member)
      exact rest.trans first

/-- A spread keeps the order of the properties. -/
theorem isOwn_spread
    {fields : List (String × Value)}
    (own : JSON.IsOwn fields)
    (updates : List (String × Value)) :
    JSON.IsOwn (spread fields updates) := by
  induction updates generalizing fields with
  | nil => exact own
  | cons update updates inductionHypothesis =>
      exact inductionHypothesis (own.assign update)

/-- The properties of a spread are updates and earlier ones. -/
theorem mem_spread
    {fields updates : List (String × Value)}
    {field : String × Value}
    (member : field ∈ spread fields updates) :
    field ∈ updates ∨ field ∈ fields := by
  induction updates generalizing fields with
  | nil => exact .inr member
  | cons update updates inductionHypothesis =>
      rcases inductionHypothesis member with later | assigned
      · exact .inl (List.mem_cons_of_mem _ later)
      · rcases JSON.mem_assign assigned with rfl | earlier
        · exact .inl List.mem_cons_self
        · exact .inr earlier

/-- Updates with different names are properties of the spread. -/
theorem lookup_spread_of_mem
    {fields updates : List (String × Value)}
    (distinct : (updates.map Prod.fst).Nodup)
    {update : String × Value}
    (member : update ∈ updates) :
    (spread fields updates).lookup update.1 = some update.2 := by
  have reversedDistinct : (updates.reverse.map Prod.fst).Nodup := by
    rw [List.map_reverse, List.nodup_reverse]
    exact distinct
  rw [lookup_spread, lookup_of_mem reversedDistinct (List.mem_reverse.mpr member),
    Option.some_or]

/-- Objects with the same different names and the same properties are equal. -/
theorem fields_ext
    {left right : List (String × Value)}
    (names : left.map Prod.fst = right.map Prod.fst)
    (distinct : (right.map Prod.fst).Nodup)
    (properties : ∀ name, left.lookup name = right.lookup name) :
    left = right := by
  have leftDistinct : (left.map Prod.fst).Nodup := by
    rw [names]
    exact distinct
  have sameLength : left.length = right.length := by
    rw [← List.length_map Prod.fst, names, List.length_map]
  apply List.ext_getElem sameLength
  intro index inLeft inRight
  have sameName : left[index].1 = right[index].1 := by
    have atIndex := List.getElem_of_eq names
      (by rw [List.length_map]; exact inLeft)
    rwa [List.getElem_map, List.getElem_map] at atIndex
  have property := properties right[index].1
  rw [lookup_of_mem distinct (List.getElem_mem inRight), ← sameName,
    lookup_of_mem leftDistinct (List.getElem_mem inLeft)] at property
  exact Prod.ext sameName (Option.some.inj property)

/-- The properties that are present. -/
def presentFields (entries : List (String × Option Value)) :
    List (String × Value) :=
  entries.filterMap fun entry => entry.2.map fun value => (entry.1, value)

/-- The names of the properties that are present. -/
theorem map_fst_presentFields_sublist
    (entries : List (String × Option Value)) :
    ((presentFields entries).map Prod.fst).Sublist (entries.map Prod.fst) := by
  induction entries with
  | nil => exact List.Sublist.refl _
  | cons entry entries inductionHypothesis =>
      obtain ⟨name, value⟩ := entry
      cases value with
      | none => exact inductionHypothesis.cons _
      | some value => exact inductionHypothesis.cons_cons _

/-- A property that is present is found. -/
theorem lookup_presentFields
    {entries : List (String × Option Value)}
    (distinct : (entries.map Prod.fst).Nodup)
    (name : String) :
    (presentFields entries).lookup name = (entries.lookup name).join := by
  induction entries with
  | nil => rfl
  | cons entry entries inductionHypothesis =>
      obtain ⟨first, value⟩ := entry
      obtain ⟨notLater, laterDistinct⟩ := List.nodup_cons.mp distinct
      rw [lookup_cons_field (first, value)]
      cases value with
      | some value =>
          change ((first, value) :: presentFields entries).lookup name = _
          rw [lookup_cons_field, inductionHypothesis laterDistinct]
          split
          · rfl
          · rfl
      | none =>
          change (presentFields entries).lookup name = _
          rw [inductionHypothesis laterDistinct]
          split
          · rename_i same
            rw [JSON.lookup_of_notMem (same ▸ notLater)]
            rfl
          · rfl

/-- With different names an update counts, wherever it stands. -/
theorem lookup_spread_of_nodup
    (fields : List (String × Value))
    {updates : List (String × Value)}
    (distinct : (updates.map Prod.fst).Nodup)
    (name : String) :
    (spread fields updates).lookup name =
      (updates.lookup name).or (fields.lookup name) := by
  cases found : updates.lookup name with
  | some value =>
      rw [Option.some_or]
      exact lookup_spread_of_mem distinct (mem_of_lookup found)
  | none =>
      rw [Option.none_or]
      exact lookup_spread_of_notMem fields updates (JSON.notMem_of_lookup found)

/-- Updates over changed values give the properties of an object another value,
if they hold it and the change gives it to the others. -/
theorem spread_map_values_eq
    {fields updates : List (String × Value)}
    (distinct : (fields.map Prod.fst).Nodup)
    (updatesDistinct : (updates.map Prod.fst).Nodup)
    {change result : Value -> Value}
    (updated : ∀ update ∈ updates,
      (fields.lookup update.1).map result = some update.2)
    (others : ∀ field ∈ fields, field.1 ∉ updates.map Prod.fst ->
      change field.2 = result field.2) :
    spread (fields.map fun field => (field.1, change field.2)) updates =
      fields.map fun field => (field.1, result field.2) := by
  have names : ∀ change : Value -> Value,
      (fields.map fun field => (field.1, change field.2)).map Prod.fst =
        fields.map Prod.fst := by
    intro change
    rw [List.map_map]
    rfl
  have present : ∀ update ∈ updates, update.1 ∈
      (fields.map fun field => (field.1, change field.2)).map Prod.fst := by
    intro update member
    rw [names]
    obtain ⟨value, found, _⟩ := Option.map_eq_some_iff.mp (updated update member)
    exact List.mem_map.mpr ⟨_, mem_of_lookup found, rfl⟩
  have sameNames := (map_fst_spread_of_mem present).trans
    ((names change).trans (names result).symm)
  apply fields_ext sameNames
  · rw [names]
    exact distinct
  intro name
  rw [lookup_spread_of_nodup _ updatesDistinct, lookup_map_values,
    lookup_map_values]
  cases isUpdated : updates.lookup name with
  | some value =>
      rw [Option.some_or]
      exact (updated (name, value) (mem_of_lookup isUpdated)).symm
  | none =>
      rw [Option.none_or]
      cases found : fields.lookup name with
      | none => rfl
      | some value =>
          rw [Option.map_some, Option.map_some, others (name, value)
            (mem_of_lookup found) (JSON.notMem_of_lookup isUpdated)]

/-! ## Written properties -/

/-- Whether a property is written by `JSON.stringify`. -/
def isDefined (field : String × Value) : Bool :=
  match field.2 with
  | .undefined => false
  | _ => true

/-- The properties that a text holds are defined. -/
theorem isDefined_of_isData
    {numbers : Number -> Prop}
    {field : String × Value}
    (isData : JSON.IsData numbers field.2) :
    isDefined field = true := by
  obtain ⟨name, value⟩ := field
  cases value with
  | undefined => exact isData.elim
  | _ => rfl

/-- The data of the elements. -/
theorem elementData_eq_map (items : List Value) :
    JSON.elementData items = items.map JSON.jsonData := by
  induction items with
  | nil => rfl
  | cons item items inductionHypothesis =>
      rw [JSON.elementData, inductionHypothesis, List.map_cons]

/-- The data of the members are those of the defined properties. -/
theorem memberData_eq_map (fields : List (String × Value)) :
    JSON.memberData fields =
      (fields.filter isDefined).map fun field =>
        (field.1, JSON.jsonData field.2) := by
  induction fields with
  | nil => rfl
  | cons field fields inductionHypothesis =>
      obtain ⟨name, value⟩ := field
      cases value with
      | undefined => exact inductionHypothesis
      | _ =>
          rw [List.filter_cons_of_pos rfl, List.map_cons, ← inductionHypothesis]
          rfl

/-- The data of an object. -/
theorem jsonData_object
    {fields : List (String × Value)}
    (own : JSON.IsOwn fields) :
    JSON.jsonData (.object fields) =
      .object ((fields.filter isDefined).map fun field =>
        (field.1, JSON.jsonData field.2)) := by
  have writtenOwn : JSON.IsOwn ((fields.filter isDefined).map fun field =>
      (field.1, JSON.jsonData field.2)) := by
    unfold JSON.IsOwn
    rw [List.map_map]
    exact own.sublist List.filter_sublist
  rw [JSON.jsonData, memberData_eq_map, JSON.foldl_assign _ [] writtenOwn,
    List.nil_append]

/-- A defined property is found among the defined ones. -/
theorem lookup_filter_isDefined
    {fields : List (String × Value)}
    (distinct : (fields.map Prod.fst).Nodup)
    {name : String}
    {value : Value}
    (found : fields.lookup name = some value)
    (defined : isDefined (name, value) = true) :
    (fields.filter isDefined).lookup name = some value :=
  lookup_of_mem (distinct.sublist ((List.filter_sublist).map Prod.fst))
    (List.mem_filter.mpr ⟨mem_of_lookup found, defined⟩)

/-- An object has a big integer inside when a property has. -/
theorem hasBigInt_object_iff (fields : List (String × Value)) :
    JSON.hasBigInt (.object fields) = true ↔
      ∃ field ∈ fields, JSON.hasBigInt field.2 = true := by
  rw [JSON.hasBigInt]
  induction fields with
  | nil => simp [JSON.memberHasBigInt]
  | cons field fields inductionHypothesis =>
      rw [JSON.memberHasBigInt, Bool.or_eq_true, inductionHypothesis,
        List.exists_mem_cons_iff]

/-- An array has a big integer inside when an element has. -/
theorem hasBigInt_array_iff (items : List Value) :
    JSON.hasBigInt (.array items) = true ↔
      ∃ item ∈ items, JSON.hasBigInt item = true := by
  rw [JSON.hasBigInt]
  induction items with
  | nil => simp [JSON.anyHasBigInt]
  | cons item items inductionHypothesis =>
      rw [JSON.anyHasBigInt, Bool.or_eq_true, inductionHypothesis,
        List.exists_mem_cons_iff]

/-- An array has no big integers when its elements have none. -/
theorem hasBigInt_array
    {items : List Value}
    (none : ∀ item ∈ items, JSON.hasBigInt item = false) :
    JSON.hasBigInt (.array items) = false := by
  rw [← Bool.not_eq_true, hasBigInt_array_iff]
  rintro ⟨item, member, has⟩
  rw [none item member] at has
  cases has

/-- The own properties of a value of a text have no big integers. -/
theorem hasBigInt_ownFields
    {value : Value}
    (isParsed : JSON.IsParsed value) :
    JSON.hasBigInt (.object (ownFields value)) = false :=
  JSON.memberHasBigInt_of_areParsed _ ((JSON.membersAreData_iff _).mpr
    fun _ member => isData_of_mem_ownFields isParsed member)

/-- A big integer among the updates of a spread is one inside it. -/
theorem hasBigInt_spread_of_updates
    (fields : List (String × Value))
    {updates : List (String × Value)}
    (distinct : (updates.map Prod.fst).Nodup)
    (isBigInt : JSON.hasBigInt (.object updates) = true) :
    JSON.hasBigInt (.object (spread fields updates)) = true := by
  rw [hasBigInt_object_iff] at isBigInt ⊢
  obtain ⟨update, member, inUpdate⟩ := isBigInt
  exact ⟨update, mem_of_lookup (lookup_spread_of_mem distinct member), inUpdate⟩

/-- Without big integers in an object and in its updates there is none in the
spread. -/
theorem hasBigInt_spread_of_none
    {fields updates : List (String × Value)}
    (none : JSON.hasBigInt (.object fields) = false)
    (noUpdate : JSON.hasBigInt (.object updates) = false) :
    JSON.hasBigInt (.object (spread fields updates)) = false := by
  rw [← Bool.not_eq_true, hasBigInt_object_iff] at none noUpdate ⊢
  rintro ⟨field, member, isBigInt⟩
  rcases mem_spread member with update | earlier
  · exact noUpdate ⟨field, update, isBigInt⟩
  · exact none ⟨field, earlier, isBigInt⟩

/-- Over properties without big integers, those inside a spread are those of the
updates. -/
theorem hasBigInt_spread
    {fields updates : List (String × Value)}
    (none : JSON.hasBigInt (.object fields) = false)
    (distinct : (updates.map Prod.fst).Nodup) :
    JSON.hasBigInt (.object (spread fields updates)) =
      JSON.hasBigInt (.object updates) := by
  cases isBigInt : JSON.hasBigInt (.object updates) with
  | true => exact hasBigInt_spread_of_updates fields distinct isBigInt
  | false => exact hasBigInt_spread_of_none none isBigInt

/-- An undefined property reads as an absent one. -/
theorem propertyOf_filter_isDefined
    {fields : List (String × Value)}
    (distinct : (fields.map Prod.fst).Nodup)
    (name : String) :
    propertyOf (.object (fields.filter isDefined)) name =
      propertyOf (.object fields) name := by
  unfold propertyOf Value.property
  dsimp only
  induction fields with
  | nil => rfl
  | cons field fields inductionHypothesis =>
      obtain ⟨notLater, laterDistinct⟩ := List.nodup_cons.mp distinct
      have later := inductionHypothesis laterDistinct
      rw [lookup_cons_field]
      by_cases defined : isDefined field = true
      · rw [List.filter_cons_of_pos defined, lookup_cons_field]
        split
        · rfl
        · exact later
      · rw [List.filter_cons_of_neg defined]
        split
        · rename_i same
          have absent : (fields.filter isDefined).lookup name = none := by
            apply JSON.lookup_of_notMem
            rw [same]
            exact fun kept => notLater
              (((List.filter_sublist).map Prod.fst).subset kept)
          rw [absent]
          obtain ⟨fieldName, value⟩ := field
          cases value with
          | undefined => rfl
          | _ => exact absurd rfl defined
        · exact later

/-- A property as it is read back; `undefined` is not written. -/
def writtenProperty : Value -> Value
  | .undefined => .undefined
  | value => JSON.jsonData value

/-- A JSON value is written as it is as a property. -/
theorem writtenProperty_of_isJson
    {value : Value}
    (isJson : JSON.IsJson value) :
    writtenProperty value = value := by
  have same := JSON.jsonData_of_isJson value isJson
  cases value with
  | undefined => rfl
  | _ => exact same

/-- Writing a property again does not change it. -/
theorem writtenProperty_writtenProperty (value : Value) :
    writtenProperty (writtenProperty value) = writtenProperty value := by
  have isJson := JSON.isJson_jsonData value
  cases value with
  | undefined => rfl
  | _ => exact writtenProperty_of_isJson isJson

/-- Reading a property of a written object. -/
theorem propertyOf_jsonData
    {fields : List (String × Value)}
    (own : JSON.IsOwn fields)
    (name : String) :
    propertyOf (JSON.jsonData (.object fields)) name =
      writtenProperty (propertyOf (.object fields) name) := by
  rw [jsonData_object own, ← propertyOf_filter_isDefined own.nodup]
  unfold propertyOf Value.property
  dsimp only
  rw [lookup_map_values]
  cases found : (fields.filter isDefined).lookup name with
  | none => rfl
  | some value =>
      have defined := (List.mem_filter.mp (mem_of_lookup found)).2
      cases value with
      | undefined => cases defined
      | _ => rfl

/-- What is written for a number is no text. -/
theorem isText_numberData (value : Number) (text : String) :
    isText (JSON.numberData value) text = false := by
  unfold JSON.numberData
  split
  · split
    · rfl
    · rfl
  · rfl

/-- A property that is no big integer is read back as a text exactly when it is that
text. -/
theorem isText_writtenProperty
    {value : Value}
    (none : JSON.hasBigInt value = false)
    (text : String) :
    isText (writtenProperty value) text = isText value text := by
  cases value with
  | bigint value => cases none
  | number value => exact isText_numberData value text
  | _ => simp [writtenProperty, JSON.jsonData, isText]

/-- The properties of an object without big integers are none. -/
theorem hasBigInt_of_lookup
    {fields : List (String × Value)}
    (none : JSON.hasBigInt (.object fields) = false)
    {name : String}
    {value : Value}
    (found : fields.lookup name = some value) :
    JSON.hasBigInt value = false := by
  rw [← Bool.not_eq_true] at none ⊢
  intro isBigInt
  exact none ((hasBigInt_object_iff fields).mpr
    ⟨(name, value), mem_of_lookup found, isBigInt⟩)

/-- Reading a property of a spread. -/
theorem propertyOf_spread
    (fields updates : List (String × Value))
    (name : String) :
    propertyOf (.object (spread fields updates)) name =
      (updates.reverse.lookup name).getD (propertyOf (.object fields) name) := by
  unfold propertyOf Value.property
  dsimp only
  rw [lookup_spread]
  cases updates.reverse.lookup name with
  | none => rfl
  | some value => rfl

/-! ## Conversions -/

/-- `value === undefined` -/
def isUndefined : Value -> Bool
  | .undefined => true
  | _ => false

/-- `value === null` -/
def isNull : Value -> Bool
  | .null => true
  | _ => false

mutual

/-- `ToString(value)` -/
def textOf : Value -> List Char
  | .undefined => "undefined".toList
  | .null => "null".toList
  | .boolean value => if value then "true".toList else "false".toList
  | .number value => JSON.numberToString value
  | .bigint value => (bigIntToString value).toList
  | .string text => text.toList
  | .array items => joinTexts items
  | .object _ => "[object Object]".toList

/-- `Array.prototype.join`: nullish elements are empty. -/
def joinTexts : List Value -> List Char
  | [] => []
  | [item] => if isNullish item then [] else textOf item
  | item :: next :: items =>
      (if isNullish item then [] else textOf item) ++
        ',' :: joinTexts (next :: items)

end

/-- `NumberToBigInt(number)` -/
def numberToBigInt (number : Number) : Except Exception Int :=
  let notInteger := Exception.rangeError ("The number " ++
    String.ofList (JSON.numberToString number) ++
    " cannot be converted to a BigInt because it is not an integer")
  match number with
  | .finite value => if value.den = 1 then .ok value.num else .error notInteger
  | _ => .error notInteger

/-- `BigInt(value)` -/
def bigIntOf : Value -> Except Exception Int
  | .undefined => .error (.typeError "Cannot convert undefined to a BigInt")
  | .null => .error (.typeError "Cannot convert null to a BigInt")
  | .boolean value => .ok (if value then 1 else 0)
  | .number value => numberToBigInt value
  | .bigint value => .ok value
  | .string text => bigIntOfString text
  | .array items => bigIntOfString (String.ofList (joinTexts items))
  | .object fields => bigIntOfString (String.ofList (textOf (.object fields)))

/-- The big integer that a property holds, and zero when it holds none. -/
def bigIntProperty (value : Value) (name : String) : Int :=
  match propertyOf value name with
  | .bigint held => held
  | _ => 0

/-- The decimal text of a big integer is converted back. -/
theorem bigIntOf_bigIntToString (value : Int) :
    bigIntOf (.string (bigIntToString value)) = .ok value := by
  rw [bigIntOf, bigIntOfString, stringToBigInt_bigIntToString]

end JavaScript
end Foundation
