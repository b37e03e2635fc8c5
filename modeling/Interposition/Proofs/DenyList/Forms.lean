import Interposition.Proofs.DenyList.Membership
import Interposition.Settings
/-!
The two forms of a deny list in the settings.

An operator writes the names that are denied in an array, or in one text with commas between
them.  The array takes each of its texts as one name, and the text is cut at every comma, so
`Settings.forms_agree` is about commas: the two forms are the same settings unless there is
one in an item.
-/

namespace Interposition

/-- A character of ASCII is a byte of a text in UTF-8 just when it is in the text. -/
theorem Text.Utf8.mem_utf8EncodeChar {c d : Char} (ascii : c.toNat < 0x80) :
    UInt8.ofNat c.toNat ∈ String.utf8EncodeChar d ↔ c = d := by
  have same : c = d ↔ c.toNat = d.val.toNat := Char.toNat_inj.symm
  rw [same, String.utf8EncodeChar]
  split_ifs <;>
    simp only [List.mem_cons, List.not_mem_nil, or_false, ← UInt8.toNat_inj,
      UInt8.toNat_ofNat'] <;>
    omega

theorem Text.Utf8.mem_encode {c : Char} (ascii : c.toNat < 0x80) {text : List Char} :
    UInt8.ofNat c.toNat ∈ encode text ↔ c ∈ text := by
  simp [encode, mem_utf8EncodeChar ascii]

/-- Folding neither makes a comma nor takes one away. -/
theorem Name.comma_mem_fold {name : Name} : 0x2C ∈ name.fold.bytes ↔ 0x2C ∈ name.bytes := by
  have unchanged {byte : UInt8} : foldByte byte = 0x2C ↔ byte = 0x2C := by
    have stays : foldByte 0x2C = 0x2C := by decide
    rw [← stays, foldByte_eq_iff, stays]
    unfold SameLetter IsLowercaseOf
    simp only [UInt8.le_iff_toNat_le, ← UInt8.toNat_inj, UInt8.reduceToNat]
    omega
  simp [Name.fold, unchanged]

/-- Of names that are alike, both have a comma or none. -/
theorem Name.Alike.comma_mem {first second : Name} (alike : first.Alike second) :
    0x2C ∈ first.bytes ↔ 0x2C ∈ second.bytes := by
  rw [← Name.comma_mem_fold, Name.fold_eq_iff.mpr alike, Name.comma_mem_fold]

/-- No name with a comma in it is denied by a list that is written with commas. -/
theorem DenyList.comma_not_mem_of_parse {text : List Char} {query : Name}
    (denied : (parse text).contains query = true) : 0x2C ∉ query.bytes := by
  obtain ⟨item, ⟨-, piece, ⟨absent, -⟩, strips⟩, alike⟩ := contains_parse.mp denied
  obtain ⟨left, right, rfl, -⟩ := strips.padded
  have inItem : ',' ∉ item := fun member => absent (by simp [member])
  rw [← alike.comma_mem]
  exact (Text.Utf8.mem_encode (by decide)).not.mpr inItem

/-- An item with the white space that is written around it in a text. -/
structure Spaced where
  left : List Char
  content : List Char
  right : List Char
  blank : ∀ c ∈ left ++ right, Text.isBlank c = true

/-- The item as it is written in a text. -/
def Spaced.written (item : Spaced) : List Char :=
  item.left ++ item.content ++ item.right

theorem Spaced.trim_written (item : Spaced) : Text.trim item.written = Text.trim item.content :=
  Text.trim_append_blank item.content item.blank

/-- White space around an item brings no commas. -/
theorem Spaced.comma_not_mem_written {item : Spaced} (absent : ',' ∉ item.content) :
    ',' ∉ item.written := by
  have solid : Text.isBlank ',' = false := by decide
  have around : ',' ∉ item.left ++ item.right := fun member => by
    simp [item.blank ',' member] at solid
  simp_all [written]

namespace Settings

/-- The array of the given items. -/
def arrayForm (items : List Spaced) : Toml.Item :=
  .array (items.map fun item => .text item.content)

/-- The text with the given items, white space around them and commas between them. -/
def textForm (items : List Spaced) : Toml.Item :=
  .text ([','].intercalate (items.map Spaced.written))

/-- An entry of a document that has the given value for the deny list, and nothing else in it
that cannot be read. -/
inductive Bears (value : Toml.Item) : List Char × Toml.Mark × Toml.Item → Prop where
  | denied (mark : Toml.Mark) : Bears value (denyKey, mark, value)
  | ignored {key : List Char} {item : Toml.Item} (mark : Toml.Mark) (other : key ≠ denyKey)
      (readable : isReadable ignoredBits item = true) : Bears value (key, mark, item)

/-- Whether a reader finds the given value for the deny list in a document. -/
def Holds (read? : List Char → Option Toml.Entries) (document : List Char) (value : Toml.Item) :
    Prop :=
  ∃ entries, read? document = some entries ∧ denyKey ∈ entries.map Prod.fst ∧
    ∀ entry ∈ entries, Bears value entry

variable {read? : List Char → Option Toml.Entries} {document : List Char} {value : Toml.Item}
  {list : DenyList}

theorem texts?_cons (item : Toml.Item) (items : List Toml.Item) :
    texts? (item :: items) =
      match item with
      | .text content => (texts? items).map (content :: ·)
      | _ => none := by
  cases item <;> simp [texts?, Option.map_eq_bind]

theorem texts?_map_text (contents : List (List Char)) :
    texts? (contents.map .text) = some contents := by
  induction contents with
  | nil => rfl
  | cons content contents inductionHypothesis =>
      rw [List.map_cons, texts?_cons, inductionHypothesis]
      rfl

theorem isReadable_of_texts? {items : List Toml.Item} {contents : List (List Char)} (bits : Nat)
    (given : texts? items = some contents) : isReadable bits (.array items) = true := by
  induction items generalizing contents with
  | nil => rfl
  | cons item items inductionHypothesis =>
      rw [texts?_cons] at given
      cases item with
      | text content =>
          obtain ⟨others, rest, -⟩ := Option.map_eq_some_iff.mp given
          exact inductionHypothesis rest
      | _ => simp at given

/-- A value that gives a deny list has no numbers in it. -/
theorem isReadable_of_denyList? (bits : Nat) (given : denyList? value = some list) :
    isReadable bits value = true := by
  cases value with
  | text content => rfl
  | array items =>
      obtain ⟨contents, texts, -⟩ := Option.map_eq_some_iff.mp given
      exact isReadable_of_texts? bits texts
  | _ => simp [denyList?] at given

theorem readEntry_of_bears {entry : List Char × Toml.Mark × Toml.Item} (settings : Settings)
    (given : denyList? value = some list) (bears : Bears value entry) :
    readEntry document settings entry =
      .ok (if entry.1 = denyKey then ⟨list⟩ else settings) := by
  cases bears with
  | denied mark => simp [readEntry, isReadable_of_denyList? inspectedBits given, given]
  | ignored mark other readable => simp [readEntry, other, readable]

/-- Reading entries gives the deny list that the one for it has. -/
theorem foldlM_readEntry {entries : Toml.Entries} (settings : Settings)
    (given : denyList? value = some list) (bear : ∀ entry ∈ entries, Bears value entry) :
    entries.foldlM (readEntry document) settings =
      .ok (if denyKey ∈ entries.map Prod.fst then ⟨list⟩ else settings) := by
  induction entries generalizing settings with
  | nil => rfl
  | cons entry entries inductionHypothesis =>
      simp only [List.mem_cons, forall_eq_or_imp] at bear
      rw [List.foldlM_cons, readEntry_of_bears settings given bear.1]
      refine (inductionHypothesis _ bear.2).trans ?_
      by_cases here : entry.1 = denyKey
      · simp [here]
      · have away : denyKey ≠ entry.1 := Ne.symm here
        simp only [List.map_cons, List.mem_cons, if_neg here, away, false_or]

/-- A document gives the deny list that is found in it. -/
theorem ofDocument_of_holds (holds : Holds read? document value)
    (given : denyList? value = some list) : ofDocument read? document = .ok ⟨list⟩ := by
  obtain ⟨entries, parsed, present, bear⟩ := holds
  have sorted := List.mergeSort_perm entries fun first second =>
    (Name.compareBytes (Text.Utf8.encode first.1) (Text.Utf8.encode second.1)).isLE
  have bearSorted := fun entry member => bear entry (sorted.mem_iff.mp member)
  simp only [ofDocument, parsed]
  rw [foldlM_readEntry default given bearSorted,
    if_pos ((sorted.map Prod.fst).mem_iff.mpr present)]

/-- Without commas in the items, the text gives the same list as the array. -/
theorem parse_written {items : List Spaced} (absent : ∀ item ∈ items, ',' ∉ item.content) :
    DenyList.parse ([','].intercalate (items.map Spaced.written)) =
      DenyList.ofItems (items.map Spaced.content) := by
  by_cases nothing : items = []
  · subst nothing
    rfl
  · have clean : ∀ part ∈ items.map Spaced.written, ',' ∉ part :=
      List.forall_mem_map.mpr fun item member => item.comma_not_mem_written (absent item member)
    have cut := List.splitOn_intercalate ',' clean (by simpa using nothing)
    rw [DenyList.parse, Text.fields_eq_splitOn, cut, DenyList.ofItems, DenyList.ofItems]
    simp only [List.map_map, Function.comp_def, Spaced.trim_written]

/-- An item with a comma is denied by the array, and not by the text. -/
theorem exists_contains_of_comma {items : List Spaced} {item : Spaced} (member : item ∈ items)
    (comma : ',' ∈ item.content) (text : List Char) :
    ∃ query, (DenyList.ofItems (items.map Spaced.content)).contains query = true ∧
      (DenyList.parse text).contains query = false := by
  have strips := Text.stripsTo_trim item.content
  have inside := strips.mem (by decide) comma
  refine ⟨Name.ofText (Text.trim item.content), ?_, ?_⟩
  · rw [DenyList.contains_ofItems]
    exact ⟨_, ⟨List.ne_nil_of_mem inside, _, List.mem_map_of_mem member, strips⟩,
      Name.fold_eq_iff.mp rfl⟩
  · rw [Bool.eq_false_iff]
    intro denied
    exact DenyList.comma_not_mem_of_parse denied ((Text.Utf8.mem_encode (by decide)).mpr inside)

/-- The array denies each of its items as a whole, and the text denies the same names unless
an item has a comma.  White space that is written around the items of the text makes no
difference, and neither does any document that the values stand in, however it is read. -/
theorem forms_agree (items : List Spaced) :
    ∃ fromArray fromText,
      denyList? (arrayForm items) = some fromArray ∧ denyList? (textForm items) = some fromText ∧
      (∀ query, fromArray.contains query = true ↔
        ∃ name, (name ≠ [] ∧ ∃ item ∈ items, Text.StripsTo item.content name) ∧
          (Name.ofText name).Alike query) ∧
      (((⟨fromArray⟩ : Settings) == ⟨fromText⟩) = true ↔ ∀ item ∈ items, ',' ∉ item.content) ∧
      ∀ (read? : List Char → Option Toml.Entries) document,
        (Holds read? document (arrayForm items) →
          ofDocument read? document = .ok ⟨fromArray⟩) ∧
        (Holds read? document (textForm items) →
          ofDocument read? document = .ok ⟨fromText⟩) := by
  have array : denyList? (arrayForm items) = some (.ofItems (items.map Spaced.content)) := by
    have texts := texts?_map_text (items.map Spaced.content)
    rw [List.map_map] at texts
    exact Option.map_eq_some_iff.mpr ⟨_, texts, rfl⟩
  have text : denyList? (textForm items) =
      some (.parse ([','].intercalate (items.map Spaced.written))) := rfl
  refine ⟨_, _, array, text, fun query => ?_, ?_, fun read? document =>
    ⟨fun holds => ofDocument_of_holds holds array, fun holds => ofDocument_of_holds holds text⟩⟩
  · simp only [DenyList.contains_ofItems, List.mem_map, exists_exists_and_eq_and]
  · refine Iff.trans ((DenyList.built_ofNames _).beq_iff (DenyList.built_parse _)) ?_
    constructor
    · intro same item member comma
      obtain ⟨query, denied, allowed⟩ := exists_contains_of_comma member comma
        ([','].intercalate (items.map Spaced.written))
      exact absurd ((same query).symm.trans denied) (by simp [allowed])
    · intro absent query
      rw [parse_written absent]
      rfl

/-- A padded item, a blank one and a repeated one in different case, in documents of TOML. -/
theorem forms_agree_of_padded :
    let items : List Spaced :=
      [⟨['\u00A0'], "exec ".toList, ['\t'], List.all_eq_true.mp rfl⟩,
        ⟨[], [' '], [], List.all_eq_true.mp rfl⟩,
        ⟨[], "EXEC".toList, ['\u3000'], List.all_eq_true.mp rfl⟩]
    let array := "disable_functions = [\"exec \", \" \", \"EXEC\"]".toList
    let text := "disable_functions = \"\\u00A0exec \\t, ,EXEC\\u3000\"\nother = 1".toList
    Holds Toml.document? array (arrayForm items) ∧ Holds Toml.document? text (textForm items) ∧
      ∃ settings other, ofToml array = .ok settings ∧ ofToml text = .ok other ∧
        (settings == other) = true := by
  intro items array text
  have inArray : Holds Toml.document? array (arrayForm items) :=
    ⟨[(denyKey, array.drop 20, arrayForm items)], rfl, List.mem_cons_self,
      List.forall_mem_singleton.mpr (.denied _)⟩
  have inText : Holds Toml.document? text (textForm items) :=
    ⟨[(denyKey, text.drop 20, textForm items), ("other".toList, "1".toList, .scalar (.integer 1))],
      rfl, List.mem_cons_self, List.forall_mem_cons.mpr ⟨.denied _,
        List.forall_mem_singleton.mpr (.ignored _ (by decide) (by decide))⟩⟩
  obtain ⟨fromArray, fromText, -, -, -, equal, read⟩ := forms_agree items
  refine ⟨inArray, inText, _, _, (read Toml.document? array).1 inArray,
    (read Toml.document? text).2 inText, ?_⟩
  exact equal.mpr (by decide)

end Settings
end Interposition
