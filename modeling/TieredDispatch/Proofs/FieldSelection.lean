import TieredDispatch.Json.Codec
import TieredDispatch.Proofs.Decoding
import TieredDispatch.Proofs.Spelling

/-!
# Configurations are read by their fields

**Theorem (`config_is_field_selection`).** A configuration is read off an object by the names of its
fields: in whatever order they come, however their names are spelled, and whatever other members
there are, as long as every key stands for a text.

A key with half a surrogate pair in it is written as the grammar admits, but stands for no text. An
object with such a key is refused, though no field is under that key (`unpaired_key_is_refused`); in
the value of a member that is passed over the same half does no harm.

What is stored for a field shows in the record that is read, and no other member changes it
(`get_members`): this is an induction over the members, in which the field's own member is the only
one that touches its part of the record. An array is read as the object with the members at the same
places (`Progress.items_eq`).
-/

namespace TieredDispatch

open Json

variable {ρ γ : Type}

/-! ## Fields of a record -/

namespace Json

variable {fields : List (Field ρ)} {field : Field ρ} {member : Member JsonText}
  {members : List (Member JsonText)} {progress : Progress ρ}

/-- The value of the first member with the given name. -/
def valueOf? (members : List (Member JsonText)) (name : String) : Option JsonText :=
  (members.find? fun member => member.name? = some name).map (·.item.value)

/-- Some member has the given name and value. -/
def Holds (members : List (Member JsonText)) (name : String) (t : JsonText) : Prop :=
  ∃ member ∈ members, member.name? = some name ∧ member.item.value = t

theorem Member.field?_eq_some (h : member.field? fields = some field) :
    field ∈ fields ∧ member.name? = some field.name := by
  obtain ⟨name, hname, hfind⟩ := Option.bind_eq_some_iff.mp h
  have hfield : field.name = name := by simpa using List.find?_some hfind
  exact ⟨List.mem_of_find?_eq_some hfind, hname.trans (congrArg some hfield.symm)⟩

theorem find?_of_mem (hnodup : (fields.map (·.name)).Nodup) (h : field ∈ fields) :
    (fields.find? fun other => other.name = field.name) = some field := by
  induction fields with
  | nil => cases h
  | cons first fields ih =>
    rw [List.map_cons, List.nodup_cons] at hnodup
    rcases List.mem_cons.mp h with rfl | hmem
    · simp
    · have hne : first.name ≠ field.name := fun heq =>
        hnodup.1 (heq ▸ List.mem_map_of_mem hmem)
      rw [List.find?_cons_of_neg (by simpa using hne)]
      exact ih hnodup.2 hmem

theorem Member.field?_of_name? (hnodup : (fields.map (·.name)).Nodup) (hmem : field ∈ fields)
    (hname : member.name? = some field.name) : member.field? fields = some field := by
  rw [Member.field?, hname]
  exact find?_of_mem hnodup hmem

/-- The members of a field are those with a name of a field. -/
theorem map_name_field? (members : List (Member JsonText)) :
    (members.filterMap (·.field? fields)).map (·.name) =
      (members.filterMap (·.name?)).filter (· ∈ fields.map (·.name)) := by
  induction members with
  | nil => rfl
  | cons member members ih =>
    cases hname : member.name? with
    | none =>
      have hfield : member.field? fields = none := by rw [Member.field?, hname]; rfl
      rw [List.filterMap_cons_none hfield, List.filterMap_cons_none hname, ih]
    | some name =>
      rw [List.filterMap_cons_some hname]
      cases hfield : member.field? fields with
      | none =>
        have hother : name ∉ fields.map (·.name) := by
          rw [Member.field?, hname] at hfield
          simpa using List.find?_eq_none.mp hfield
        rw [List.filterMap_cons_none hfield, List.filter_cons_of_neg (by simpa using hother), ih]
      | some field =>
        obtain ⟨hmem, hname'⟩ := Member.field?_eq_some hfield
        obtain rfl : name = field.name := Option.some.inj (hname.symm.trans hname')
        rw [List.filterMap_cons_some hfield, List.map_cons,
          List.filter_cons_of_pos (by simpa using ⟨field, hmem, rfl⟩), ih]

/-- What is stored for one of the fields shows in the record, and nothing else does: neither what is
stored for other fields, nor members of no field. -/
theorem get_members (progress : Progress ρ) (get : ρ → γ) (value : JsonText → Option γ)
    (hnodup : (fields.map (·.name)).Nodup) (hmem : field ∈ fields)
    (hself : ∀ member ∈ members, member.name? = some field.name →
      ∃ v, value member.item.value = some v ∧
        ∀ record, get (field.put member.item.value record) = v)
    (hother : ∀ other ∈ fields, other.name ≠ field.name →
      ∀ t record, get (other.put t record) = get record)
    (honce : ((members.filterMap (·.field? fields)).map (·.name)).Nodup) :
    get (members.foldl (Progress.member fields) progress).record =
      ((valueOf? members field.name).bind value).getD (get progress.record) := by
  induction members generalizing progress with
  | nil => rfl
  | cons member members ih =>
    rw [List.forall_mem_cons] at hself
    rw [List.foldl_cons]
    by_cases hname : member.name? = some field.name
    · have hfield := Member.field?_of_name? hnodup hmem hname
      obtain ⟨v, hv, hput⟩ := hself.1 hname
      rw [List.filterMap_cons_some hfield, List.map_cons, List.nodup_cons, map_name_field?] at honce
      have hlast : valueOf? members field.name = none := by
        rw [valueOf?, Option.map_eq_none_iff, List.find?_eq_none]
        intro other hother hname'
        refine honce.1 (List.mem_filter.mpr ⟨List.mem_filterMap.mpr ⟨other, hother, ?_⟩, ?_⟩)
        · simpa using hname'
        · simpa using ⟨field, hmem, rfl⟩
      rw [ih _ hself.2 (by rw [map_name_field?]; exact honce.2), hlast, Progress.member, hfield,
        valueOf?, List.find?_cons_of_pos (by simpa using hname)]
      simp [Progress.put, hput, hv]
    · have hsame : get (progress.member fields member).record = get progress.record := by
        rw [Progress.member]
        cases hfield : member.field? fields with
        | none => rfl
        | some other =>
          obtain ⟨hmem', hname'⟩ := Member.field?_eq_some hfield
          refine hother other hmem' (fun heq => hname ?_) _ _
          rw [hname', heq]
      have honce' : ((members.filterMap (·.field? fields)).map (·.name)).Nodup := by
        refine honce.sublist (List.Sublist.map _ ?_)
        exact (List.sublist_cons_self member members).filterMap _
      rw [ih _ hself.2 honce', hsame, valueOf?, valueOf?,
        List.find?_cons_of_neg (by simpa using hname)]

/-- If a name comes once at most, the value found under it is the one that it has. -/
theorem valueOf?_eq_some {names : List String} {name : String} {t : JsonText} (hname : name ∈ names)
    (honce : ((members.filterMap (·.name?)).filter (· ∈ names)).Nodup) :
    valueOf? members name = some t ↔ Holds members name t := by
  induction members with
  | nil => simp [valueOf?, Holds]
  | cons member members ih =>
    by_cases hmember : member.name? = some name
    · have hlast : ∀ other ∈ members, other.name? ≠ some name := by
        intro other hother hname'
        rw [List.filterMap_cons_some hmember, List.filter_cons_of_pos (by simpa using hname),
          List.nodup_cons] at honce
        refine honce.1 (List.mem_filter.mpr ⟨?_, by simpa using hname⟩)
        exact List.mem_filterMap.mpr ⟨other, hother, hname'⟩
      rw [valueOf?, List.find?_cons_of_pos (by simpa using hmember), Option.map_some,
        Option.some.injEq]
      constructor
      · rintro rfl
        exact ⟨member, List.mem_cons_self, hmember, rfl⟩
      · rintro ⟨other, hother, hname', rfl⟩
        rcases List.mem_cons.mp hother with rfl | hother
        · rfl
        · exact absurd hname' (hlast other hother)
    · have honce' : ((members.filterMap (·.name?)).filter (· ∈ names)).Nodup :=
        honce.sublist (((List.sublist_cons_self member members).filterMap _).filter _)
      have hsame : valueOf? (member :: members) name = valueOf? members name := by
        rw [valueOf?, List.find?_cons_of_neg (by simpa using hmember), valueOf?]
      rw [hsame, ih honce']
      simp [Holds, hmember]

/-- Elements of an array stand for the members of the fields at their places: they are stored
alike. -/
theorem Progress.items_eq (progress : Progress ρ) {places : List (Field ρ)}
    {items : List (Item JsonText)}
    (hplaces : ∀ field ∈ places, (fields.find? fun other => other.name = field.name) = some field)
    (hnames : members.map (·.name?) = ((places.map (·.name)).take items.length).map some)
    (hvalues : members.map (·.item.value) = items.map (·.value)) :
    items.length ≤ places.length ∧
    progress.items places items = members.foldl (Progress.member fields) progress ∧
    ∀ p ∈ places.zip items, ∃ member ∈ members,
      member.field? fields = some p.1 ∧ member.item.value = p.2.value := by
  have hlength : members.length = items.length := by
    simpa using congrArg List.length hvalues
  induction places generalizing members items progress with
  | nil =>
    obtain rfl : members = [] := by simpa using hnames
    obtain rfl : items = [] := List.length_eq_zero_iff.mp hlength.symm
    exact ⟨Nat.le_refl 0, rfl, by simp⟩
  | cons field places ih =>
    cases items with
    | nil =>
      obtain rfl : members = [] := List.length_eq_zero_iff.mp hlength
      exact ⟨Nat.zero_le _, rfl, by simp⟩
    | cons item items =>
      obtain ⟨member, members, rfl⟩ := List.exists_cons_of_length_eq_add_one hlength
      simp only [List.map_cons, List.length_cons, List.take_succ_cons, List.cons.injEq] at hnames
      simp only [List.map_cons, List.cons.injEq] at hvalues
      rw [List.forall_mem_cons] at hplaces
      have hfield : member.field? fields = some field := by
        rw [Member.field?, hnames.1]
        exact hplaces.1
      have hstored : progress.member fields member = progress.put field item.value := by
        rw [Progress.member, hfield, hvalues.1]
        rfl
      obtain ⟨hfew, hsame, hmembers⟩ := ih (progress.put field item.value) hplaces.2
        hnames.2 hvalues.2 (by simpa using hlength)
      refine ⟨Nat.succ_le_succ hfew, ?_, ?_⟩
      · rw [List.foldl_cons, hstored, ← hsame]
        rfl
      · rw [List.zip_cons_cons, List.forall_mem_cons]
        refine ⟨⟨member, List.mem_cons_self, hfield, hvalues.1⟩, fun p hp => ?_⟩
        obtain ⟨other, hother, hp⟩ := hmembers p hp
        exact ⟨other, List.mem_cons_of_mem member hother, hp⟩

end Json

namespace Field

/-- A field stores nothing at all, or a value that its setter takes. -/
theorem put_of_cases (name : String) (decoder : Decoder γ) (set : γ → ρ → ρ) (t : JsonText) :
    (Field.of name decoder set).put t = id ∨ ∃ v, (Field.of name decoder set).put t = set v := by
  rw [put]
  split
  · rename_i store rest hread
    obtain ⟨⟨v, rest'⟩, -, hstore⟩ := map_eq_ok_iff.mp hread
    exact .inr ⟨v, (Prod.mk.inj hstore).1.symm⟩
  · exact .inl rfl

theorem get_put_of {δ : Type} (get : ρ → δ) {set : γ → ρ → ρ}
    (h : ∀ v record, get (set v record) = get record) (name : String) (decoder : Decoder γ)
    (t : JsonText) (record : ρ) : get ((Field.of name decoder set).put t record) = get record := by
  rcases put_of_cases name decoder set t with hput | ⟨v, hput⟩
  · rw [hput, id]
  · rw [hput, h]

end Field

/-! ## Configurations -/

/-- The compilation mode that a value stands for. -/
def JsonText.mode? (t : JsonText) : Option CompilationMode :=
  t.choice? [.synchronous, .background] toString

namespace TierConfig

/-- The names of the fields, in the order of their declaration. -/
def fieldNames : List String :=
  ["l1_threshold", "l2_threshold", "compilation_mode", "compile_workers", "shards"]

/-- Members under any keys and with any values, but each field comes once at most and has a value of
its type. -/
structure FieldsTyped (members : List (Member JsonText)) : Prop where
  once : ((members.filterMap (·.name?)).filter (· ∈ fieldNames)).Nodup
  word : ∀ member ∈ members, ∀ name ∈ ["l1_threshold", "l2_threshold", "compile_workers", "shards"],
    member.name? = some name → member.item.value.word?.isSome
  mode : ∀ member ∈ members, member.name? = some "compilation_mode" →
    member.item.value.mode?.isSome

/-- The fields are typed, and every key stands for a text: no escape in it is half a surrogate
pair. -/
structure WellTyped (members : List (Member JsonText)) : Prop extends FieldsTyped members where
  named : ∀ member ∈ members, member.name?.isSome

/-- The configuration that members stand for: their values under the names of the fields, and the
default where there is none. -/
def selected (members : List (Member JsonText)) : TierConfig where
  l1Threshold := ((valueOf? members "l1_threshold").bind (·.word?)).getD 20
  l2Threshold := ((valueOf? members "l2_threshold").bind (·.word?)).getD 900
  mode := ((valueOf? members "compilation_mode").bind (·.mode?)).getD .synchronous
  compileWorkers := ((valueOf? members "compile_workers").bind (·.word?)).getD 1
  shards := ((valueOf? members "shards").bind (·.word?)).getD 64

theorem nodup_fieldNames : (schema.fields.map (·.name)).Nodup := by
  decide

variable {members : List (Member JsonText)}

/-- Each field that some member is for accepts its value. -/
theorem WellTyped.fits (h : WellTyped members) : Fits schema.fields [] members where
  named := h.named
  accepted := by
    intro member hmember field hfield
    obtain ⟨hmem, hname⟩ := Member.field?_eq_some hfield
    have hword : ∀ name ∈ ["l1_threshold", "l2_threshold", "compile_workers", "shards"],
        member.name? = some name → ∀ set : UInt64 → TierConfig → TierConfig,
        (Field.of name .word set).Accepts member.item.value := by
      intro name hname hmember' set
      obtain ⟨n, hn⟩ := Option.isSome_iff_exists.mp (h.word member hmember name hname hmember')
      exact Field.accepts_of name set fun before rest hrest =>
        member.item.value.readWord_text before hn hrest
    have hmode : member.name? = some "compilation_mode" →
        ∀ set : CompilationMode → TierConfig → TierConfig,
        (Field.of "compilation_mode" JsonCoded.decoder set).Accepts member.item.value := by
      intro hmember' set
      obtain ⟨mode, hmode⟩ := Option.isSome_iff_exists.mp (h.mode member hmember hmember')
      exact Field.accepts_of _ set fun before rest _ =>
        member.item.value.readName_text before hmode rest
    simp only [schema, List.mem_cons, List.not_mem_nil, or_false] at hmem
    rcases hmem with rfl | rfl | rfl | rfl | rfl
    · exact hword _ (by decide) hname _
    · exact hword _ (by decide) hname _
    · exact hmode hname _
    · exact hword _ (by decide) hname _
    · exact hword _ (by decide) hname _
  once := by
    rw [List.append_nil, map_name_field?]
    exact h.once

/-- A part of a configuration is kept by all fields but one, if their setters keep it. -/
theorem get_put_other (get : TierConfig → γ) {name : String}
    (hl1 : name = "l1_threshold" ∨ ∀ n config, get { config with l1Threshold := n } = get config)
    (hl2 : name = "l2_threshold" ∨ ∀ n config, get { config with l2Threshold := n } = get config)
    (hmode : name = "compilation_mode" ∨ ∀ mode config, get { config with mode } = get config)
    (hworkers : name = "compile_workers" ∨
      ∀ n config, get { config with compileWorkers := n } = get config)
    (hshards : name = "shards" ∨ ∀ n config, get { config with shards := n } = get config) :
    ∀ other ∈ schema.fields, other.name ≠ name →
      ∀ t config, get (other.put t config) = get config := by
  intro other hmem hne t config
  simp only [schema, List.mem_cons, List.not_mem_nil, or_false] at hmem
  rcases hmem with rfl | rfl | rfl | rfl | rfl
  · exact Field.get_put_of get (hl1.resolve_left hne.symm) _ _ t config
  · exact Field.get_put_of get (hl2.resolve_left hne.symm) _ _ t config
  · exact Field.get_put_of get (hmode.resolve_left hne.symm) _ _ t config
  · exact Field.get_put_of get (hworkers.resolve_left hne.symm) _ _ t config
  · exact Field.get_put_of get (hshards.resolve_left hne.symm) _ _ t config

/-- A word field of the record is the word under its name, or else its default. -/
theorem WellTyped.get_word (h : WellTyped members) (get : TierConfig → UInt64) {name : String}
    (set : UInt64 → TierConfig → TierConfig)
    (hname : name ∈ ["l1_threshold", "l2_threshold", "compile_workers", "shards"])
    (hmem : Field.of name .word set ∈ schema.fields) (hset : ∀ n config, get (set n config) = n)
    (hother : ∀ other ∈ schema.fields, other.name ≠ name →
      ∀ t config, get (other.put t config) = get config) :
    get (Progress.ofMembers schema members).record =
      ((valueOf? members name).bind (·.word?)).getD (get {}) := by
  have honce := h.fits.once
  rw [List.append_nil] at honce
  refine get_members _ get JsonText.word? nodup_fieldNames hmem ?_ hother honce
  intro member hmember hmember'
  obtain ⟨n, hn⟩ := Option.isSome_iff_exists.mp (h.word member hmember name hname hmember')
  refine ⟨n, hn, fun config => ?_⟩
  rw [Field.put_of name set fun before _ hrest => member.item.value.readWord_text before hn hrest]
  exact hset n config

theorem WellTyped.get_mode (h : WellTyped members) :
    (Progress.ofMembers schema members).record.mode =
      ((valueOf? members "compilation_mode").bind (·.mode?)).getD .synchronous := by
  have honce := h.fits.once
  rw [List.append_nil] at honce
  have hmem : Field.of "compilation_mode" JsonCoded.decoder
      (fun mode (config : TierConfig) => { config with mode }) ∈ schema.fields := by
    simp [schema]
  have hother := get_put_other TierConfig.mode (.inr fun _ _ => rfl) (.inr fun _ _ => rfl)
    (.inl rfl) (.inr fun _ _ => rfl) (.inr fun _ _ => rfl)
  refine get_members _ TierConfig.mode JsonText.mode? nodup_fieldNames hmem ?_ hother honce
  intro member hmember hmember'
  obtain ⟨mode, hmode⟩ := Option.isSome_iff_exists.mp (h.mode member hmember hmember')
  refine ⟨mode, hmode, fun config => ?_⟩
  rw [Field.put_of _ _ fun before rest _ => member.item.value.readName_text before hmode rest]

/-- The record read off well-typed members. -/
theorem WellTyped.record_eq (h : WellTyped members) :
    (Progress.ofMembers schema members).record = selected members := by
  have hl1 := h.get_word TierConfig.l1Threshold (fun n config => { config with l1Threshold := n })
    (by decide) (by simp [schema]) (fun _ _ => rfl)
    (get_put_other _ (.inl rfl) (.inr fun _ _ => rfl)
      (.inr fun _ _ => rfl) (.inr fun _ _ => rfl) (.inr fun _ _ => rfl))
  have hl2 := h.get_word TierConfig.l2Threshold (fun n config => { config with l2Threshold := n })
    (by decide) (by simp [schema]) (fun _ _ => rfl)
    (get_put_other _ (.inr fun _ _ => rfl) (.inl rfl)
      (.inr fun _ _ => rfl) (.inr fun _ _ => rfl) (.inr fun _ _ => rfl))
  have hworkers := h.get_word TierConfig.compileWorkers
    (fun n config => { config with compileWorkers := n })
    (by decide) (by simp [schema]) (fun _ _ => rfl) (get_put_other _ (.inr fun _ _ => rfl)
      (.inr fun _ _ => rfl) (.inr fun _ _ => rfl) (.inl rfl) (.inr fun _ _ => rfl))
  have hshards := h.get_word TierConfig.shards (fun n config => { config with shards := n })
    (by decide) (by simp [schema]) (fun _ _ => rfl) (get_put_other _ (.inr fun _ _ => rfl)
      (.inr fun _ _ => rfl) (.inr fun _ _ => rfl) (.inr fun _ _ => rfl) (.inl rfl))
  have hmode := h.get_mode
  generalize (Progress.ofMembers schema members).record = config at *
  obtain ⟨l1, l2, mode, workers, shards⟩ := config
  exact TierConfig.mk.injEq .. ▸ ⟨hl1, hl2, hmode, hworkers, hshards⟩

variable (before after space : Blanks)

/-- An object is read as the configuration that its members stand for. -/
theorem WellTyped.decode_object (h : WellTyped members) :
    decode TierConfig ((JsonText.object space members).document before after) =
      .ok (selected members) :=
  Decoder.decode_document
    (readRecord_object before space h.fits (congrArg Except.ok h.record_eq) after)

/-- Members of which the first ones have keys that stand for texts. -/
theorem FieldsTyped.wellTyped_prefix {others : List (Member JsonText)}
    (h : FieldsTyped (members ++ others)) (hnamed : ∀ member ∈ members, member.name?.isSome) :
    WellTyped members where
  named := hnamed
  once := h.once.sublist
    (((List.sublist_append_left members others).filterMap _).filter _)
  word := fun member hmember => h.word member (List.mem_append_left others hmember)
  mode := fun member hmember => h.mode member (List.mem_append_left others hmember)

/-- An object with a key that stands for no text is refused, if there is nothing else wrong. -/
theorem FieldsTyped.decode_unnamed (h : FieldsTyped members)
    (hunnamed : ∃ member ∈ members, member.name? = none) :
    decode TierConfig ((JsonText.object space members).document before after) =
      .error .malformed := by
  obtain ⟨unnamed, hfind⟩ : ∃ unnamed, members.find? (·.name?.isNone) = some unnamed :=
    Option.isSome_iff_exists.mp (List.find?_isSome.mpr (by simpa using hunnamed))
  obtain ⟨hname, first, others, rfl, hfirst⟩ := List.find?_eq_some_iff_append.mp hfind
  have hnamed : ∀ member ∈ first, member.name?.isSome := by
    intro member hmember
    simpa [Option.isSome_iff_ne_none] using hfirst member hmember
  have hread := readRecord_unnamed before space (h.wellTyped_prefix hnamed).fits
    (Option.isNone_iff_eq_none.mp hname) others after
  show Decoder.decode (.record schema) _ = _
  rw [Decoder.decode, JsonText.document, String.toList_ofList]
  show (readRecord schema _ >>= _) = _
  rw [hread]
  rfl

/-- An array is read as the object that holds its elements under the names of the first fields. -/
theorem WellTyped.decode_array (h : WellTyped members) {items : List (Item JsonText)}
    (hnames : members.map (·.name?) = (fieldNames.take items.length).map some)
    (hvalues : members.map (·.item.value) = items.map (·.value)) :
    decode TierConfig ((JsonText.array space items).document before after) =
      .ok (selected members) := by
  obtain ⟨hfew, hsame, hmembers⟩ := Progress.items_eq { record := schema.initial }
    (fun field hfield => find?_of_mem nodup_fieldNames hfield) hnames hvalues
  refine Decoder.decode_document (readRecord_array before space hfew (fun p hp => ?_) ?_ after)
  · obtain ⟨member, hmember, hfield, hvalue⟩ := hmembers p hp
    exact hvalue ▸ h.fits.accepted member hmember p.1 hfield
  · rw [hsame]
    exact congrArg Except.ok h.record_eq

/-- A field that comes twice is refused, whatever follows its second key. -/
theorem WellTyped.decode_again (h : WellTyped members) {again : Member JsonText} {name : String}
    (hname : name ∈ fieldNames) (hagain : again.name? = some name)
    (hmember : ∃ member ∈ members, member.name? = some name) (rest : List Char) :
    decode TierConfig (String.ofList (before ++ '\x7b' :: (space ++
      (JsonText.membersText true members ++ ',' :: (again.before ++ (stringText again.key ++
        rest)))))) = .error .mismatched := by
  obtain ⟨field, hmem, rfl⟩ := List.mem_map.mp (show name ∈ schema.fields.map (·.name) from hname)
  obtain ⟨member, hmember, hname'⟩ := hmember
  have hread := readRecord_again before space h.fits
    (Member.field?_of_name? nodup_fieldNames hmem hagain)
    ⟨member, hmember, Member.field?_of_name? nodup_fieldNames hmem hname'⟩ rest
  show Decoder.decode (.record schema) _ = _
  rw [Decoder.decode, String.toList_ofList]
  show (readRecord schema _ >>= _) = _
  rw [hread]
  rfl

/-- Members that hold the same values under the names of the fields stand for the same
configuration, whatever other members there are and in whatever order they come. -/
theorem WellTyped.selected_eq (h : WellTyped members) {others : List (Member JsonText)}
    (hothers : WellTyped others)
    (hsame : ∀ name ∈ fieldNames, ∀ t, Holds others name t ↔ Holds members name t) :
    selected others = selected members := by
  have hvalue : ∀ name ∈ fieldNames, valueOf? others name = valueOf? members name := by
    intro name hname
    ext t
    rw [valueOf?_eq_some hname hothers.once, valueOf?_eq_some hname h.once, hsame name hname t]
  simp only [selected, hvalue _ (by decide : "l1_threshold" ∈ fieldNames),
    hvalue _ (by decide : "l2_threshold" ∈ fieldNames),
    hvalue _ (by decide : "compilation_mode" ∈ fieldNames),
    hvalue _ (by decide : "compile_workers" ∈ fieldNames),
    hvalue _ (by decide : "shards" ∈ fieldNames)]

/-- **Configurations are read by their fields.** Take an object with members under any keys that
stand for a text, however these are spelled, and with any values, in which each field of a
configuration comes once at most and has a value of its type. Then

- it is read as the configuration with these values, and the default for every other field,
- every object with the same values under the names of the fields is read as the same
  configuration, in whatever order its members come and whatever other members it has,
- if a field comes a second time, the text is refused, whatever follows the second key, and
- if its members are the first fields in their order, an array of their values is read as the
  same configuration. -/
theorem config_is_field_selection {members : List (Member JsonText)} (h : WellTyped members) :
    (∀ before space after, decode TierConfig ((JsonText.object space members).document before after)
      = .ok (selected members)) ∧
    (∀ others, WellTyped others →
      (∀ name ∈ fieldNames, ∀ t, Holds others name t ↔ Holds members name t) →
      ∀ before space after,
        decode TierConfig ((JsonText.object space others).document before after) =
          .ok (selected members)) ∧
    (∀ name ∈ fieldNames, ∀ again : Member JsonText, again.name? = some name →
      (∃ t, Holds members name t) → ∀ (before space : Blanks) (rest : List Char),
        decode TierConfig (String.ofList (before ++ '\x7b' :: (space ++
          (JsonText.membersText true members ++ ',' :: (again.before ++ (stringText again.key ++
            rest)))))) = .error .mismatched) ∧
    (∀ items : List (Item JsonText),
      members.map (·.name?) = (fieldNames.take items.length).map some →
      members.map (·.item.value) = items.map (·.value) → ∀ before space after,
        decode TierConfig ((JsonText.array space items).document before after) =
          .ok (selected members)) := by
  refine ⟨fun before space after => h.decode_object before after space, ?_, ?_, ?_⟩
  · intro others hothers hsame before space after
    rw [hothers.decode_object before after space, h.selected_eq hothers hsame]
  · rintro name hname again hagain ⟨t, member, hmember, hname', -⟩ before space rest
    exact h.decode_again before space hname hagain ⟨member, hmember, hname'⟩ rest
  · intro items hnames hvalues before space after
    exact h.decode_array before after space hnames hvalues

/-- A member without blanks. -/
def compactMember (key : List StringPiece) (value : JsonText) : Member JsonText :=
  ⟨Field.noBlanks, key, Field.noBlanks, ⟨Field.noBlanks, value, Field.noBlanks⟩⟩

/-- The escape of a code unit. -/
def escapedUnit (a b c d : Nat) (h : a < 16 ∧ b < 16 ∧ c < 16 ∧ d < 16) : StringPiece :=
  .unit ⟨.ofNat a h.1, .ofNat b h.2.1, .ofNat c h.2.2.1, .ofNat d h.2.2.2⟩

/-- A word, a field whose name is spelled with an escape, a member of no field that holds other
fields and half a surrogate pair, and a mode as an object. -/
def mixedMembers : List (Member JsonText) :=
  [compactMember (spell "shards") (.number (.ofNat 8)),
    compactMember (escapedUnit 0 0 6 12 (by decide) :: spell "1_threshold") (.number (.ofNat 5)),
    compactMember (spell "x") (.array Field.noBlanks [
      ⟨Field.noBlanks, .object Field.noBlanks [compactMember (spell "shards") .null],
        Field.noBlanks⟩,
      ⟨Field.noBlanks, .string [escapedUnit 13 8 0 0 (by decide)], Field.noBlanks⟩]),
    compactMember (spell "compilation_mode")
      (.object Field.noBlanks [compactMember (spell "background") .null])]

theorem config_is_field_selection_mixed :
    let text := "\x7b\"shards\":8,\"\\u006c1_threshold\":5," ++
      "\"x\":[\x7b\"shards\":null\x7d,\"\\ud800\"]," ++
      "\"compilation_mode\":\x7b\"background\":null\x7d"
    decode TierConfig (text ++ "\x7d") =
        .ok { l1Threshold := 5, mode := .background, shards := 8 } ∧
      decode TierConfig (text ++ ",\"shards\"?") = .error .mismatched := by
  intro text
  have hmembers : WellTyped mixedMembers := {
    named := by decide
    once := by decide
    word := by decide
    mode := by decide }
  obtain ⟨hread, -, hagain, -⟩ := config_is_field_selection hmembers
  constructor
  · exact hread Field.noBlanks Field.noBlanks Field.noBlanks
  · have hshards : ∃ t, Holds mixedMembers "shards" t := ⟨_, _, List.mem_cons_self, rfl, rfl⟩
    exact hagain "shards" (by decide) (compactMember (spell "shards") .null) rfl hshards
      Field.noBlanks Field.noBlanks ['?']

/-- A member of no field, whose key is half a surrogate pair. -/
def unpairedMember : Member JsonText :=
  compactMember [escapedUnit 13 8 0 0 (by decide)] (.number (.ofNat 1))

/-- An object is not read by its fields alone: half a surrogate pair in a key spoils it, though no
member is for a field and the default configuration is what the members stand for. -/
theorem unpaired_key_is_refused :
    FieldsTyped [unpairedMember] ∧
    (JsonText.object Field.noBlanks [unpairedMember]).document Field.noBlanks Field.noBlanks =
      "\x7b\"\\ud800\":1\x7d" ∧
    selected [unpairedMember] = {} ∧
    decode TierConfig "\x7b\"\\ud800\":1\x7d" = .error .malformed := by
  have htyped : FieldsTyped [unpairedMember] := {
    once := by decide
    word := by decide
    mode := by decide }
  exact ⟨htyped, by decide, rfl, htyped.decode_unnamed Field.noBlanks Field.noBlanks
    Field.noBlanks ⟨_, List.mem_cons_self, rfl⟩⟩

end TierConfig

end TieredDispatch
