import Privachain.Generator.GeneratedWitness
import Privachain.Generator.LoadingSemantics
import Mathlib.Data.List.OfFn

/-!
# From a document to a witness

A document names each input signal once, in any order, and holds its numbers as
texts.  The generator has a result on it exactly when the numbers satisfy the
circuit.
-/

namespace Privachain
namespace Generator

open Foundation Circuit
open Foundation.JavaScript (parseDigits)
open FrElement (slot str2element fromMpz Represents)
open WriteOnce (contents)

/-! ## Texts of numbers -/

/-- The number that a valid text stands for: zero without digits. -/
def textNumber (text : Bytes) : Option Nat :=
  let (s, base) := splitPrefix text
  if checkValidNumber s base then
    some ((parseDigits base (characters s)).getD 0)
  else none

/-- The element of a number. -/
def numberElement (n : Nat) : FrElement := fromMpz slot ((n : Int) % q.toNat)

theorem eq_minus_of_character :
    ∀ c : BitVec 8, Char.ofNat c.toNat = '-' -> c = 45 := by
  decide

/-- A valid text has no sign. -/
theorem unsigned_of_valid
    {s : Bytes}
    {base : Nat}
    (valid : checkValidNumber s base = true) : '-' ∉ characters s := by
  intro signed
  obtain ⟨c, member, isSign⟩ := List.mem_map.mp signed
  obtain rfl := eq_minus_of_character c isSign
  unfold checkValidNumber at valid
  split at valid
  · have digit := List.all_eq_true.mp valid _ member
    simp at digit
  · have digit := List.all_eq_true.mp valid _ member
    simp at digit

/-- A valid text becomes the element of its number. -/
theorem readText_of_textNumber
    {text : Bytes}
    {n : Nat}
    (number : textNumber text = some n) :
    readText text = .ok (numberElement n) := by
  unfold textNumber at number
  unfold readText
  generalize splitPrefix text = split at number ⊢
  obtain ⟨s, base⟩ := split
  dsimp only at number ⊢
  by_cases valid : checkValidNumber s base = true
  · rw [if_pos valid, Option.some_inj] at number
    rw [valid, Bool.not_true, if_neg Bool.false_ne_true, numberElement, ← number,
      str2element,
      FrElement.mpzInitSetStr_of_unsigned (unsigned_of_valid valid)]
  · rw [if_neg valid] at number
    cases number

/-- The element of a number represents its residue. -/
theorem numberElement_represents (n : Nat) :
    Represents (numberElement n) (n : Fr) := by
  have positive : (0 : Int) < fieldSize := by
    exact_mod_cast Nat.pos_of_ne_zero (NeZero.ne fieldSize)
  have read := FrElement.fromMpz_represents slot
    (Int.emod_nonneg (n : Int) positive.ne') (Int.emod_lt_of_pos _ positive)
  rw [ZMod.intCast_mod, Int.cast_natCast] at read
  rw [numberElement, q_toNat]
  exact read.1

/-! ## Documents -/

/-- The same function on every input. -/
def mapInputs
    {A B : Type}
    (f : A -> B)
    (inputs : TransactionInputs A 4 4 20) : TransactionInputs B 4 4 20 where
  root := f inputs.root
  nullifierHashes := fun i => f (inputs.nullifierHashes i)
  outCommitments := fun i => f (inputs.outCommitments i)
  inAmount := fun i => f (inputs.inAmount i)
  inSecret := fun i => f (inputs.inSecret i)
  inRecipient := fun i => f (inputs.inRecipient i)
  inPathElements := fun i j => f (inputs.inPathElements i j)
  inPathIndices := fun i j => f (inputs.inPathIndices i j)
  outAmount := fun i => f (inputs.outAmount i)
  outSecret := fun i => f (inputs.outSecret i)
  outRecipient := fun i => f (inputs.outRecipient i)

theorem mapInputs_mapInputs
    {A B C : Type}
    (f : B -> C)
    (g : A -> B)
    (inputs : TransactionInputs A 4 4 20) :
    mapInputs f (mapInputs g inputs) = mapInputs (fun a => f (g a)) inputs := rfl

/-- A relation of the values of two functions carries over to the inputs. -/
theorem mapInputs_of_eq
    {A B C D : Type}
    {f : A -> C}
    {g : B -> C}
    {first : A -> D}
    {second : B -> D}
    (implies : ∀ a b, f a = g b -> first a = second b)
    {inputs : TransactionInputs A 4 4 20}
    {others : TransactionInputs B 4 4 20}
    (same : mapInputs f inputs = mapInputs g others) :
    mapInputs first inputs = mapInputs second others := by
  have array {n : Nat} {x : Fin n -> A} {y : Fin n -> B}
      (same : (fun i => f (x i)) = fun i => g (y i)) :
      (fun i => first (x i)) = fun i => second (y i) := by
    funext i
    exact implies _ _ (congrFun same i)
  have arrays {m n : Nat} {x : Fin m -> Fin n -> A} {y : Fin m -> Fin n -> B}
      (same : (fun i j => f (x i j)) = fun i j => g (y i j)) :
      (fun i j => first (x i j)) = fun i j => second (y i j) := by
    funext i
    exact array (congrFun same i)
  apply TransactionInputs.ext
  · exact implies _ _ (congrArg TransactionInputs.root same)
  · exact array (congrArg TransactionInputs.nullifierHashes same)
  · exact array (congrArg TransactionInputs.outCommitments same)
  · exact array (congrArg TransactionInputs.inAmount same)
  · exact array (congrArg TransactionInputs.inSecret same)
  · exact array (congrArg TransactionInputs.inRecipient same)
  · exact arrays (congrArg TransactionInputs.inPathElements same)
  · exact arrays (congrArg TransactionInputs.inPathIndices same)
  · exact array (congrArg TransactionInputs.outAmount same)
  · exact array (congrArg TransactionInputs.outSecret same)
  · exact array (congrArg TransactionInputs.outRecipient same)

/-- Elements that represent values do so in every input. -/
theorem mapInputs_represent
    {A : Type}
    {f : A -> FrElement}
    {g : A -> Fr}
    (represents : ∀ a, Represents (f a) (g a))
    (inputs : TransactionInputs A 4 4 20) :
    InputsRepresent (mapInputs f inputs) (mapInputs g inputs) where
  root := represents _
  nullifierHashes := fun _ => represents _
  outCommitments := fun _ => represents _
  inAmount := fun _ => represents _
  inSecret := fun _ => represents _
  inRecipient := fun _ => represents _
  inPathElements := fun _ _ => represents _
  inPathIndices := fun _ _ => represents _
  outAmount := fun _ => represents _
  outSecret := fun _ => represents _
  outRecipient := fun _ => represents _

/-- The texts of a signal array. -/
def textArray {n : Nat} (texts : Fin n -> Bytes) : Json :=
  .array (List.ofFn fun i => .string (texts i))

/-- The texts of an array of arrays. -/
def textArrays {m n : Nat} (texts : Fin m -> Fin n -> Bytes) : Json :=
  .array (List.ofFn fun i => textArray (texts i))

/-- The members of a document. -/
def document (texts : TransactionInputs Bytes 4 4 20) : List (Bytes × Json) :=
  [(bytes "root", .string texts.root),
    (bytes "nullifierHashes", textArray texts.nullifierHashes),
    (bytes "outCommitments", textArray texts.outCommitments),
    (bytes "inAmount", textArray texts.inAmount),
    (bytes "inSecret", textArray texts.inSecret),
    (bytes "inRecipient", textArray texts.inRecipient),
    (bytes "inPathElements", textArrays texts.inPathElements),
    (bytes "inPathIndices", textArrays texts.inPathIndices),
    (bytes "outAmount", textArray texts.outAmount),
    (bytes "outSecret", textArray texts.outSecret),
    (bytes "outRecipient", textArray texts.outRecipient)]

/-- What the members set. -/
def documentSettings
    (elements : TransactionInputs FrElement 4 4 20) :
    List (Fin 256 × List FrElement) :=
  signalSlots.zip
    [[elements.root],
      List.ofFn elements.nullifierHashes,
      List.ofFn elements.outCommitments,
      List.ofFn elements.inAmount,
      List.ofFn elements.inSecret,
      List.ofFn elements.inRecipient,
      (List.ofFn fun i => List.ofFn (elements.inPathElements i)).flatten,
      (List.ofFn fun i => List.ofFn (elements.inPathIndices i)).flatten,
      List.ofFn elements.outAmount,
      List.ofFn elements.outSecret,
      List.ofFn elements.outRecipient]

/-! ## Qualified names of a document -/

/-- The value is an entry of its own. -/
def IsEntry (value : Json) : Prop :=
  ∀ pre in1, qualify false pre value in1 = .ok (assign pre value in1)

theorem checkTypes_of_forall
    {t : ValueType}
    (pre : Bytes)
    (items : List Json)
    (same : ∀ item ∈ items, checkType pre item = .ok t) :
    checkTypes pre t items = .ok t := by
  induction items with
  | nil => rfl
  | cons item items inductionHypothesis =>
      obtain ⟨first, rest⟩ := List.forall_mem_cons.mp same
      rw [checkTypes, first]
      change (if t ≠ t then _ else _) = _
      rw [if_neg (not_not.mpr rfl)]
      exact inductionHypothesis rest

/-- Items of one type give their array that type. -/
theorem checkType_array
    {t : ValueType}
    (pre : Bytes)
    {items : List Json}
    (nonempty : items ≠ [])
    (same : ∀ item ∈ items, checkType pre item = .ok t) :
    checkType pre (.array items) = .ok t := by
  cases items with
  | nil => exact absurd rfl nonempty
  | cons first rest =>
      obtain ⟨head, tail⟩ := List.forall_mem_cons.mp same
      rw [checkType, head]
      exact checkTypes_of_forall pre rest tail

theorem checkType_textArray
    {n : Nat}
    (pre : Bytes)
    (texts : Fin (n + 1) -> Bytes) :
    checkType pre (textArray texts) = .ok .numberInteger := by
  apply checkType_array pre
  · simp
  · intro item member
    obtain ⟨i, rfl⟩ := List.mem_ofFn.mp member
    rfl

theorem isEntry_array
    {items : List Json}
    (nonempty : items ≠ [])
    (numbers : ∀ pre, checkType pre (.array items) = .ok .numberInteger) :
    IsEntry (.array items) := by
  intro pre in1
  have some_items : items.length > 0 := List.length_pos_iff.mpr nonempty
  rw [qualify, if_neg Bool.false_ne_true, if_pos some_items, numbers]
  rfl

theorem isEntry_textArray
    {n : Nat}
    (texts : Fin (n + 1) -> Bytes) : IsEntry (textArray texts) :=
  isEntry_array (by simp) fun pre => checkType_textArray pre texts

theorem isEntry_textArrays
    {m n : Nat}
    (texts : Fin (m + 1) -> Fin (n + 1) -> Bytes) : IsEntry (textArrays texts) := by
  refine isEntry_array (by simp) fun pre => checkType_array pre (by simp) ?_
  intro item member
  obtain ⟨i, rfl⟩ := List.mem_ofFn.mp member
  exact checkType_textArray pre (texts i)

/-- A new key is added to the entries. -/
theorem assign_perm
    {key : Bytes}
    (value : Json)
    {entries : List (Bytes × Json)}
    (fresh : key ∉ entries.map Prod.fst) :
    (assign key value entries).Perm ((key, value) :: entries) := by
  induction entries with
  | nil => rfl
  | cons entry entries inductionHypothesis =>
      obtain ⟨other, old⟩ := entry
      rw [List.map_cons, List.mem_cons, not_or] at fresh
      rw [assign, if_neg fresh.1]
      split
      · rfl
      · exact ((inductionHypothesis fresh.2).cons _).trans (List.Perm.swap _ _ _)

/-- Members with different names become the entries. -/
theorem qualifyMembers_perm
    (members : List (Bytes × Json))
    (areEntries : ∀ entry ∈ members, IsEntry entry.2)
    {in1 : List (Bytes × Json)}
    (distinct : ((members ++ in1).map Prod.fst).Nodup) :
    ∃ j, qualifyMembers [] members in1 = .ok j ∧ j.Perm (members ++ in1) := by
  induction members generalizing in1 with
  | nil => exact ⟨in1, rfl, List.Perm.refl in1⟩
  | cons member members inductionHypothesis =>
      obtain ⟨key, value⟩ := member
      obtain ⟨first, rest⟩ := List.forall_mem_cons.mp areEntries
      have fresh : key ∉ in1.map Prod.fst := by
        rw [List.cons_append, List.map_cons, List.nodup_cons, List.map_append,
          List.mem_append, not_or] at distinct
        exact distinct.1.2
      have assigned := assign_perm value fresh
      have moved : (members ++ assign key value in1).Perm
          ((key, value) :: members ++ in1) :=
        (assigned.append_left members).trans List.perm_middle
      obtain ⟨j, qualified, perm⟩ := @inductionHypothesis rest
        (assign key value in1) ((moved.map Prod.fst).nodup_iff.mpr distinct)
      refine ⟨j, ?_, perm.trans moved⟩
      rw [qualifyMembers, List.length_nil, if_pos rfl, first]
      exact qualified

/-! ## Values of a document -/

/-- The values of items are those of one after the other. -/
theorem items2FrElements_ofFn
    {n : Nat}
    {items : Fin n -> Json}
    {v : Fin n -> List FrElement}
    (read : ∀ i, json2FrElements (items i) = .ok (v i)) :
    items2FrElements (List.ofFn items) = .ok (List.ofFn v).flatten := by
  induction n with
  | zero => rfl
  | succ n inductionHypothesis =>
      rw [List.ofFn_succ, List.ofFn_succ, items2FrElements, read 0,
        inductionHypothesis fun i => read i.succ]
      rfl

theorem flatten_ofFn_singleton
    {n : Nat}
    (elements : Fin n -> FrElement) :
    (List.ofFn fun i => [elements i]).flatten = List.ofFn elements := by
  induction n with
  | zero => rfl
  | succ n inductionHypothesis =>
      rw [List.ofFn_succ, List.ofFn_succ, List.flatten_cons, inductionHypothesis]
      rfl

theorem json2FrElements_textArray
    {n : Nat}
    {texts : Fin n -> Bytes}
    {elements : Fin n -> FrElement}
    (read : ∀ i, readText (texts i) = .ok (elements i)) :
    json2FrElements (textArray texts) = .ok (List.ofFn elements) := by
  have items (i : Fin n) :
      json2FrElements (.string (texts i)) = .ok [elements i] := by
    rw [json2FrElements, read i]
    rfl
  rw [textArray, json2FrElements, items2FrElements_ofFn items,
    flatten_ofFn_singleton]

theorem json2FrElements_textArrays
    {m n : Nat}
    {texts : Fin m -> Fin n -> Bytes}
    {elements : Fin m -> Fin n -> FrElement}
    (read : ∀ i j, readText (texts i j) = .ok (elements i j)) :
    json2FrElements (textArrays texts) =
      .ok (List.ofFn fun i => List.ofFn (elements i)).flatten := by
  rw [textArrays, json2FrElements, items2FrElements_ofFn
    fun i => json2FrElements_textArray (read i)]

/-- Arrays of one length lie one after the other. -/
theorem flatten_ofFn
    {m n : Nat}
    (elements : Fin m -> Fin n -> FrElement) :
    (List.ofFn fun i => List.ofFn (elements i)).flatten =
      List.ofFn fun index : Fin (m * n) =>
        elements index.divNat index.modNat := by
  rw [List.ofFn_mul]
  congr 2
  funext i
  congr 1
  funext j
  have positive : 0 < n := Nat.lt_of_le_of_lt (Nat.zero_le _) j.isLt
  have row : (i.val * n + j.val) / n = i.val := by
    rw [Nat.mul_comm, Nat.mul_add_div positive, Nat.div_eq_of_lt j.isLt,
      Nat.add_zero]
  have column : (i.val * n + j.val) % n = j.val := by
    rw [Nat.mul_comm, Nat.mul_add_mod, Nat.mod_eq_of_lt j.isLt]
  congr 1
  · exact Fin.ext row.symm
  · exact Fin.ext column.symm

/-- An entry under the name of a signal sets that signal. -/
theorem setting_of_name
    {name : String}
    {pos : Fin 256}
    {value : Json}
    {v : List FrElement}
    (named : (inputHashMap (homeSlot (fnv1a (bytes name)))).hash =
      fnv1a (bytes name) ∧ pos = homeSlot (fnv1a (bytes name)))
    (read : json2FrElements value = .ok v)
    (length : v.length = (inputHashMap pos).signalsize) :
    setting (bytes name, value) = some (pos, v) :=
  (setting_eq_some_iff _ _ _).mpr
    ⟨read, (getInputSignalHashPosition_eq_ok_iff _ _).mpr named, length⟩

/-- The members of a document set the elements of their texts. -/
theorem document_settings
    {texts : TransactionInputs Bytes 4 4 20}
    {elements : TransactionInputs FrElement 4 4 20}
    (read : mapInputs readText texts = mapInputs .ok elements) :
    List.Forall₂ (fun entry set => setting entry = some set) (document texts)
      (documentSettings elements) := by
  have array {n : Nat} {texts : Fin n -> Bytes} {elements : Fin n -> FrElement}
      (read : (fun i => readText (texts i)) = fun i => .ok (elements i)) :
      json2FrElements (textArray texts) = .ok (List.ofFn elements) :=
    json2FrElements_textArray (congrFun read)
  have arrays {m n : Nat} {texts : Fin m -> Fin n -> Bytes}
      {elements : Fin m -> Fin n -> FrElement}
      (read : (fun i j => readText (texts i j)) = fun i j => .ok (elements i j)) :
      json2FrElements (textArrays texts) =
        .ok (List.ofFn fun i => List.ofFn (elements i)).flatten :=
    json2FrElements_textArrays fun i j => congrFun (congrFun read i) j
  have root : json2FrElements (.string texts.root) = .ok [elements.root] := by
    have text : readText texts.root = .ok elements.root :=
      congrArg TransactionInputs.root read
    rw [json2FrElements, text]
    rfl
  have length {n : Nat} (f : Fin n -> FrElement) : (List.ofFn f).length = n :=
    List.length_ofFn
  have lengths {m n : Nat} (f : Fin m -> Fin n -> FrElement) :
      (List.ofFn fun i => List.ofFn (f i)).flatten.length = m * n := by
    rw [flatten_ofFn, List.length_ofFn]
  exact .cons (setting_of_name (by decide +kernel) root rfl) <|
    .cons (setting_of_name (by decide +kernel)
      (array (congrArg TransactionInputs.nullifierHashes read)) (length _)) <|
    .cons (setting_of_name (by decide +kernel)
      (array (congrArg TransactionInputs.outCommitments read)) (length _)) <|
    .cons (setting_of_name (by decide +kernel)
      (array (congrArg TransactionInputs.inAmount read)) (length _)) <|
    .cons (setting_of_name (by decide +kernel)
      (array (congrArg TransactionInputs.inSecret read)) (length _)) <|
    .cons (setting_of_name (by decide +kernel)
      (array (congrArg TransactionInputs.inRecipient read)) (length _)) <|
    .cons (setting_of_name (by decide +kernel)
      (arrays (congrArg TransactionInputs.inPathElements read)) (lengths _)) <|
    .cons (setting_of_name (by decide +kernel)
      (arrays (congrArg TransactionInputs.inPathIndices read)) (lengths _)) <|
    .cons (setting_of_name (by decide +kernel)
      (array (congrArg TransactionInputs.outAmount read)) (length _)) <|
    .cons (setting_of_name (by decide +kernel)
      (array (congrArg TransactionInputs.outSecret read)) (length _)) <|
    .cons (setting_of_name (by decide +kernel)
      (array (congrArg TransactionInputs.outRecipient read)) (length _)) .nil

/-- The field elements of numbers. -/
def residues
    (numbers : TransactionInputs Nat 4 4 20) : TransactionInputs Fr 4 4 20 :=
  mapInputs (fun n : Nat => (n : Fr)) numbers

/-- The texts stand for the numbers. -/
def TextsRead
    (texts : TransactionInputs Bytes 4 4 20)
    (numbers : TransactionInputs Nat 4 4 20) : Prop :=
  mapInputs textNumber texts = mapInputs some numbers

/-- Texts that stand for numbers are read as their elements. -/
theorem TextsRead.elements
    {texts : TransactionInputs Bytes 4 4 20}
    {numbers : TransactionInputs Nat 4 4 20}
    (read : TextsRead texts numbers) :
    mapInputs readText texts =
      mapInputs .ok (mapInputs numberElement numbers) := by
  rw [mapInputs_mapInputs]
  exact mapInputs_of_eq (fun _ _ number => readText_of_textNumber number) read

/-- The members in any order set every input signal once, to its element. -/
theorem settings_of_document
    {texts : TransactionInputs Bytes 4 4 20}
    {elements : TransactionInputs FrElement 4 4 20}
    (read : mapInputs readText texts = mapInputs .ok elements)
    {j : List (Bytes × Json)}
    (perm : j.Perm (document texts)) :
    ∃ settings, j.mapM setting = some settings ∧
      settings.Perm (documentSettings elements) := by
  obtain ⟨settings, related, settingsPerm⟩ :=
    List.perm_comp_forall₂ perm (document_settings read)
  exact ⟨settings, (mapM_eq_some_iff _ _ _).mpr related, settingsPerm⟩

/-- The settings of a document are its elements at their addresses. -/
theorem settingInputs_document
    {elements : TransactionInputs FrElement 4 4 20}
    {settings : List (Fin 256 × List FrElement)}
    (fit : ∀ set ∈ settings, set.2.length = (inputHashMap set.1).signalsize)
    (perm : settings.Perm (documentSettings elements)) :
    settingInputs settings = elements := by
  have slots : ((settings.map Prod.fst).filter fun pos =>
      0 < (inputHashMap pos).signalsize).Perm signalSlots :=
    (perm.map Prod.fst).filter _
  have distinct := ((fill_iff fit).mpr slots).1
  have cell {n : Nat} {f : Fin n -> FrElement}
      (pos : Fin 256)
      {start : Nat}
      (first : firstCell pos = start)
      (member : (pos, List.ofFn f) ∈ documentSettings elements)
      (i : Fin n) :
      contents (fun _ => slot) (settingWrites settings) (0 + (start + i.val)) =
        f i := by
    rw [Nat.zero_add, ← first]
    have write : (firstCell pos + i.val, f i) ∈ settingWrites settings := by
      rw [settingWrites, List.mem_flatMap]
      exact ⟨_, perm.mem_iff.mpr member, WriteOnce.mem_block_ofFn _ f i⟩
    exact WriteOnce.contents_of_mem _ distinct write
  have cells {f : Fin 4 -> Fin 20 -> FrElement}
      (pos : Fin 256)
      {start : Nat}
      (first : firstCell pos = start)
      (member : (pos, (List.ofFn fun i => List.ofFn (f i)).flatten) ∈
        documentSettings elements)
      (i : Fin 4)
      (j : Fin 20) :
      contents (fun _ => slot) (settingWrites settings)
          (0 + (start + (20 * i.val + j.val))) = f i j := by
    rw [flatten_ofFn] at member
    have index : (finProdFinEquiv (i, j)).val = 20 * i.val + j.val := by
      rw [finProdFinEquiv_apply_val, Nat.add_comm]
    have read := cell pos first member (finProdFinEquiv (i, j))
    have back : ((finProdFinEquiv (i, j)).divNat, (finProdFinEquiv (i, j)).modNat)
        = (i, j) := finProdFinEquiv.symm_apply_apply (i, j)
    rw [Prod.mk.injEq] at back
    rwa [index, back.1, back.2] at read
  have entry {index : Nat} {set : Fin 256 × List FrElement}
      (isEntry : (documentSettings elements)[index]? = some set) :
      set ∈ documentSettings elements := List.mem_of_getElem? isEntry
  apply TransactionInputs.ext
  · exact @cell 1 (fun _ => elements.root) 197 0 rfl (@entry 0 _ rfl) 0
  · funext i
    exact cell 57 rfl (@entry 1 _ rfl) i
  · funext i
    exact cell 255 rfl (@entry 2 _ rfl) i
  · funext i
    exact cell 130 rfl (@entry 3 _ rfl) i
  · funext i
    exact cell 22 rfl (@entry 4 _ rfl) i
  · funext i
    exact cell 221 rfl (@entry 5 _ rfl) i
  · funext i j
    exact cells 252 rfl (@entry 6 _ rfl) i j
  · funext i j
    exact cells 98 rfl (@entry 7 _ rfl) i j
  · funext i
    exact cell 11 rfl (@entry 8 _ rfl) i
  · funext i
    exact cell 151 rfl (@entry 9 _ rfl) i
  · funext i
    exact cell 114 rfl (@entry 10 _ rfl) i

/-! ## The whole generator -/

/-- Every member of a document is an entry of its own. -/
theorem document_areEntries (texts : TransactionInputs Bytes 4 4 20) :
    ∀ entry ∈ document texts, IsEntry entry.2 := by
  have root : IsEntry (.string texts.root) := fun _ _ => rfl
  simp only [document, List.forall_mem_cons, List.not_mem_nil, false_imp_iff,
    implies_true, and_true]
  exact ⟨root, isEntry_textArray _, isEntry_textArray _, isEntry_textArray _,
    isEntry_textArray _, isEntry_textArray _, isEntry_textArrays _,
    isEntry_textArrays _, isEntry_textArray _, isEntry_textArray _,
    isEntry_textArray _⟩

theorem document_distinct (texts : TransactionInputs Bytes 4 4 20) :
    ((document texts).map Prod.fst).Nodup := by
  have names : (signalNames.map bytes).Nodup := by decide
  exact names

section Documents

variable {poseidon : List FrElement -> Option FrElement}
variable {texts : TransactionInputs Bytes 4 4 20}
variable {members : List (Bytes × Json)}

/-- On a document the generator is the program on the elements of the texts,
whatever the order of the members and the old contents of the memory. -/
theorem generate_document
    {elements : TransactionInputs FrElement 4 4 20}
    (read : mapInputs readText texts = mapInputs .ok elements)
    (perm : members.Perm (document texts))
    (memory : Nat -> FrElement) :
    (generate poseidon memory (.object members)).toOption.bind CalcWit.signals =
      transactionRun poseidon elements := by
  have areEntries : ∀ entry ∈ members, IsEntry entry.2 := fun entry member =>
    document_areEntries texts entry (perm.mem_iff.mp member)
  have distinct : ((members ++ []).map Prod.fst).Nodup := by
    rw [List.append_nil]
    exact (perm.map Prod.fst).nodup_iff.mpr (document_distinct texts)
  obtain ⟨j, qualified, entries⟩ := qualifyMembers_perm members areEntries distinct
  rw [List.append_nil] at entries
  obtain ⟨settings, set, settingsPerm⟩ :=
    settings_of_document read (entries.trans perm)
  have slots : ((settings.map Prod.fst).filter fun pos =>
      0 < (inputHashMap pos).signalsize).Perm signalSlots :=
    (settingsPerm.map Prod.fst).filter _
  have input : qualifyInput [] (.object members) [] = .ok j := by
    rw [qualifyInput, qualify, qualified]
  rw [generate_eq, input]
  change ((j.mapM setting).bind fun _ => _) = _
  rw [set, Option.bind_some, if_pos slots,
    settingInputs_document (settings_fit set) settingsPerm]

/-- A document has a result exactly if its numbers satisfy the circuit, and then
every signal represents the satisfying assignment. -/
theorem generate_iff_satisfiable
    {tables : Nat -> PoseidonTables FrElement}
    {constants : Nat -> PoseidonTables Fr}
    (table : ∀ t, TablesRepresent (tables t) (constants t))
    {numbers : TransactionInputs Nat 4 4 20}
    (read : TextsRead texts numbers)
    (perm : members.Perm (document texts))
    (memory : Nat -> FrElement) :
    ((∃ ctx t, generate (poseidonComponents tables) memory (.object members) =
          .ok ctx ∧ ctx.signals = some t) ↔
      ∃ signals : Transaction Fr 4 4 20,
        signals.toTransactionInputs = residues numbers ∧
          signals.Constraints (poseidonHash constants)) ∧
    ∀ ctx t, generate (poseidonComponents tables) memory (.object members) =
        .ok ctx -> ctx.signals = some t ->
      ∃ signals : Transaction Fr 4 4 20,
        signals.toTransactionInputs = residues numbers ∧
          signals.Constraints (poseidonHash constants) ∧
          TransactionRepresents t signals := by
  have represents := mapInputs_represent numberElement_represents numbers
  rw [← residues] at represents
  have spec := transactionRun_iff_satisfiable (poseidonComponents_hashesTo table)
    represents
  have program := @generate_document (poseidonComponents tables) texts members _
    read.elements perm memory
  have result (t : Transaction FrElement 4 4 20) :
      (∃ ctx, generate (poseidonComponents tables) memory (.object members) =
          .ok ctx ∧ ctx.signals = some t) ↔
        transactionRun (poseidonComponents tables)
          (mapInputs numberElement numbers) = some t := by
    rw [← program]
    cases generate (poseidonComponents tables) memory (.object members) with
    | error => simp [Except.toOption]
    | ok ctx => simp [Except.toOption]
  constructor
  · rw [← spec.1, exists_comm]
    exact exists_congr result
  · intro ctx t ran isResult
    exact spec.2 t ((result t).mp ⟨ctx, ran, isResult⟩)

end Documents

/-- The transaction that pays back, as texts. -/
theorem sampleTexts_read :
    TextsRead (sampleTransaction (bytes "0") (bytes "0x1"))
      (sampleTransaction 0 1) := by
  have zero : textNumber (bytes "0") = some 0 := by decide
  have one : textNumber (bytes "0x1") = some 1 := by decide
  simp only [TextsRead, mapInputs, sampleTransaction, zero, one]

theorem generate_pays_back :
    ∃ ctx t, generate (poseidonComponents (zeroTables longZero)) (fun _ => slot)
      (.object (document (sampleTransaction (bytes "0") (bytes "0x1")))) =
        .ok ctx ∧ ctx.signals = some t := by
  have values : residues (sampleTransaction 0 1) = sampleTransaction 0 1 := by
    simp only [residues, mapInputs, sampleTransaction, Nat.cast_zero,
      Nat.cast_one]
  have spec := generate_iff_satisfiable zeroTables_represent sampleTexts_read
    (List.Perm.refl _) (fun _ => slot)
  rw [spec.1, values]
  exact sampleTransaction_satisfiable

end Generator
end Privachain
