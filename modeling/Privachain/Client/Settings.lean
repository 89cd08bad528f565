import Privachain.Client.DatabaseTexts

/-!
# The settings of the wallet

`getSettings` spreads what is stored over the defaults, and `saveSettings`
spreads its argument over that.  Whatever is stored, the result is an object with
all the default properties, and what is saved is read back property by property,
as it is written.
-/

namespace Privachain
namespace Client
namespace DatabaseTexts

open Foundation
open Foundation.JavaScript
open Foundation.StoredItem

/-! ## What `getSettings` returns -/

/-- The properties of the settings. -/
def settingsOf (read : Except Exception (Option String)) :
    List (String × Value) :=
  ownFields (getSettings read)

/-- An object with values of a text that has all default properties. -/
structure IsSettings (fields : List (String × Value)) : Prop where
  isParsed : JSON.IsParsed (.object fields)
  complete : ∀ setting ∈ defaultSettings, setting.1 ∈ fields.map Prod.fst

/-- The names of a spread are the earlier ones and the updated ones. -/
theorem mem_map_fst_spread
    {fields : List (String × Value)}
    {name : String}
    (member : name ∈ fields.map Prod.fst)
    (updates : List (String × Value)) :
    name ∈ (spread fields updates).map Prod.fst := by
  by_contra absent
  have notFound := JSON.lookup_of_notMem absent
  rw [lookup_spread, Option.or_eq_none_iff] at notFound
  exact JSON.notMem_of_lookup notFound.2 member

/-- A spread of values of a text over an object of one is such an object. -/
theorem isData_spread
    {numbers : Number -> Prop}
    {fields updates : List (String × Value)}
    (isData : JSON.IsData numbers (.object fields))
    (updatesAreData : ∀ update ∈ updates, JSON.IsData numbers update.2) :
    JSON.IsData numbers (.object (spread fields updates)) := by
  refine ⟨isOwn_spread isData.1 updates, ?_⟩
  rw [JSON.membersAreData_iff]
  intro field member
  rcases mem_spread member with update | earlier
  · exact updatesAreData field update
  · exact (JSON.membersAreData_iff fields).mp isData.2 field earlier

theorem isSettings_defaultSettings : IsSettings defaultSettings :=
  ⟨isParsed_defaultSettings, fun _ member => List.mem_map_of_mem member⟩

theorem IsSettings.spread
    {fields updates : List (String × Value)}
    (isSettings : IsSettings fields)
    (updatesAreParsed : ∀ update ∈ updates, JSON.IsParsed update.2) :
    IsSettings (spread fields updates) :=
  ⟨isData_spread isSettings.isParsed updatesAreParsed,
    fun setting member =>
      mem_map_fst_spread (isSettings.complete setting member) updates⟩

/-- The settings are an object, whatever is stored. -/
theorem getSettings_eq_object (read : Except Exception (Option String)) :
    getSettings read = .object (settingsOf read) := by
  unfold settingsOf getSettings getStored
  split <;> rfl

/-- The settings are complete, whatever is stored. -/
theorem isSettings_settingsOf (read : Except Exception (Option String)) :
    IsSettings (settingsOf read) := by
  unfold settingsOf getSettings getStored
  split
  · rename_i parsed reads
    exact isSettings_defaultSettings.spread fun field member =>
      isData_of_mem_ownFields (isParsed_of_readContent reads) member
  · exact isSettings_defaultSettings
  · exact isSettings_defaultSettings

/-- The properties of a value of a text, as they are written. -/
theorem lookup_ownFields_jsonData
    {fields : List (String × Value)}
    (isParsed : JSON.IsParsed (.object fields))
    (name : String) :
    (ownFields (JSON.jsonData (.object fields))).lookup name =
      (fields.lookup name).map JSON.jsonData := by
  have defined : fields.filter isDefined = fields :=
    List.filter_eq_self.mpr fun field member =>
      isDefined_of_isData ((JSON.membersAreData_iff fields).mp isParsed.2 field
        member)
  rw [jsonData_object isParsed.1, defined]
  exact lookup_map_values JSON.jsonData fields name

/-- Complete settings that are written are read back with their properties, as
they are written. -/
theorem lookup_settingsOf_written
    {fields : List (String × Value)}
    (isSettings : IsSettings fields)
    (name : String) :
    (settingsOf (.ok (some (JSON.stringifyReplaced (.object fields))))).lookup
      name = (fields.lookup name).map JSON.jsonData := by
  have isParsed := isSettings.isParsed
  have read : settingsOf
      (.ok (some (JSON.stringifyReplaced (.object fields)))) =
        spread defaultSettings (ownFields (JSON.jsonData (.object fields))) := by
    rw [settingsOf, getSettings, getStored, readContent_stringifyReplaced]
    rfl
  have own := isOwn_ownFields (JSON.isJson_jsonData (.object fields))
  rw [read, lookup_spread_of_nodup _ own.nodup, lookup_ownFields_jsonData isParsed]
  cases found : fields.lookup name with
  | some value => rfl
  | none =>
      -- the defaults have no name that the settings lack
      rw [Option.map_none, Option.none_or]
      apply JSON.lookup_of_notMem
      intro isDefault
      obtain ⟨setting, member, rfl⟩ := List.mem_map.mp isDefault
      exact JSON.notMem_of_lookup found (isSettings.complete setting member)

/-! ## What `saveSettings` does -/

/-- The settings that are saved over what is read. -/
def updatedSettings
    (settings : Properties)
    (read : Except Exception (Option String)) : List (String × Value) :=
  spread (settingsOf read) settings.fields

section SaveSettings

variable
  {settings : Properties}
  (areParsed : ∀ setting ∈ settings.fields, JSON.IsParsed setting.2)

include areParsed

theorem isSettings_updatedSettings
    (read : Except Exception (Option String)) :
    IsSettings (updatedSettings settings read) :=
  (isSettings_settingsOf read).spread areParsed

/-- Settings of a text have a text to write, whatever is read. -/
theorem saveSettings_eq_rewriteItem (access : Access) :
    saveSettings access settings =
      rewriteItem access fun read =>
        .ok (JSON.stringifyReplaced (.object (updatedSettings settings read))) := by
  unfold saveSettings mutate
  congr 1
  funext read
  exact JSON.stringifyValue_of_isParsed
    (isSettings_updatedSettings areParsed read).isParsed

/-- Saving settings of a text writes them or throws. -/
theorem saveSettings_eq (access : Access) (item : Option String) :
    saveSettings access settings item =
      match access.setItem with
      | some refusal => .error refusal item
      | none => .ok ⟨⟩ (some (JSON.stringifyReplaced
          (.object (updatedSettings settings (access.read item))))) := by
  rw [saveSettings_eq_rewriteItem areParsed, rewriteItem_eq]
  cases access.setItem with
  | none => rfl
  | some refusal => rfl

/-- Saved settings are read back as they are written: the given ones, and the others
as they were read. -/
theorem lookup_settingsOf_updatedSettings
    (read : Except Exception (Option String))
    (name : String) :
    (settingsOf (.ok (some (JSON.stringifyReplaced
        (.object (updatedSettings settings read)))))).lookup name =
      ((settings.fields.lookup name).or ((settingsOf read).lookup name)).map
        JSON.jsonData := by
  rw [lookup_settingsOf_written (isSettings_updatedSettings areParsed read),
    updatedSettings, lookup_spread_of_nodup _ settings.own.nodup]

end SaveSettings

end DatabaseTexts
end Client
end Privachain
