import TieredDispatch.Json.Codec
import TieredDispatch.Proofs.FieldSelection

/-!
# Decoding undoes encoding

**Theorem (`decoding_undoes_encoding`).** A value of a public type is read back from its JSON text,
also if there are blanks between the tokens, and if the members of an object come in another order.

The tokens of a value with blanks between them (`SpacedOut`) are the text of a syntax tree
(`exists_writtenAs`, an induction over the value and its members), and what the decoders read off
such a tree is the value. For a record this is a matter of its members' names and values, so their
order does not matter.
-/

namespace TieredDispatch

open Json

/-! ## Texts of a value -/

namespace Json

/-- The tokens one after the other, with blanks before, between and behind them. -/
inductive SpacedOut : List (List Char) → List Char → Prop
  | nil (blanks : Blanks) : SpacedOut [] blanks
  | cons (blanks : Blanks) (token : List Char) {tokens : List (List Char)} {text : List Char} :
      SpacedOut tokens text → SpacedOut (token :: tokens) (blanks ++ (token ++ text))

theorem SpacedOut.flatten (tokens : List (List Char)) : SpacedOut tokens tokens.flatten := by
  induction tokens with
  | nil => exact .nil Field.noBlanks
  | cons token tokens ih => exact .cons Field.noBlanks token ih

end Json

namespace JsonValue

/-- The same value, perhaps with the members of an object in another order. -/
inductive Reordered : JsonValue → JsonValue → Prop
  | refl (value : JsonValue) : Reordered value value
  | object {members members' : List (String × JsonValue)} (h : members'.Perm members) :
      Reordered (object members) (object members')

mutual

/-- A tree of a value: it may have blanks between its tokens. -/
def WrittenAs : JsonValue → JsonText → Prop
  | number n, t => t = .number (.ofNat n)
  | text s, t => t = .string (spell s)
  | object members, t =>
    ∃ space members', t = .object space members' ∧ MembersWrittenAs members members'
termination_by structural value => value

/-- Trees of the members of an object. -/
def MembersWrittenAs : List (String × JsonValue) → List (Member JsonText) → Prop
  | [], members' => members' = []
  | (key, value) :: members, members' =>
    ∃ first rest, members' = first :: rest ∧ first.key = spell key ∧
      value.WrittenAs first.item.value ∧ MembersWrittenAs members rest
termination_by structural members => members

end

mutual

/-- Tokens of a value with blanks between them are the text of a tree of the value. -/
theorem exists_writtenAs (value : JsonValue) {tokens : List (List Char)} {s : List Char}
    (h : SpacedOut (value.tokens ++ tokens) s) :
    ∃ (before : Blanks) (t : JsonText) (rest : List Char), s = before ++ (t.text ++ rest) ∧
      value.WrittenAs t ∧ SpacedOut tokens rest := by
  match value with
  | number n =>
    obtain _ | ⟨blanks, _, h⟩ := h
    exact ⟨blanks, .number (.ofNat n), _, by rw [JsonText.text, Number.text_ofNat], rfl, h⟩
  | text s =>
    obtain _ | ⟨blanks, _, h⟩ := h
    exact ⟨blanks, .string (spell s), _, by rw [JsonText.text, stringText_spell], rfl, h⟩
  | object members =>
    rw [JsonValue.tokens, List.cons_append, List.cons_append, List.append_assoc] at h
    obtain _ | ⟨blanks, _, h⟩ := h
    obtain ⟨space, members', rest, rfl, hwritten, -, h⟩ := exists_membersWrittenAs members h
    refine ⟨blanks, .object space members', rest, ?_, ⟨space, members', rfl, hwritten⟩, h⟩
    rw [JsonText.text_object_append]
    rfl
termination_by structural value

theorem exists_membersWrittenAs (members : List (String × JsonValue)) {tokens : List (List Char)}
    {s : List Char} (h : SpacedOut (firstTokens members ++ (['\x7d'] :: tokens)) s) :
    ∃ (space : Blanks) (members' : List (Member JsonText)) (rest : List Char),
      s = space ++ (JsonText.membersText true members' ++ '\x7d' :: rest) ∧
      MembersWrittenAs members members' ∧ (members ≠ [] → space = Field.noBlanks) ∧
      SpacedOut tokens rest := by
  match members with
  | [] =>
    obtain _ | ⟨blanks, _, h⟩ := h
    exact ⟨blanks, [], _, rfl, rfl, fun hne => absurd rfl hne, h⟩
  | (key, value) :: members =>
    rw [firstTokens, List.cons_append, List.cons_append, List.append_assoc] at h
    obtain _ | ⟨before, _, h⟩ := h
    obtain _ | ⟨between, _, h⟩ := h
    obtain ⟨before', t, s, rfl, hvalue, h⟩ := exists_writtenAs value h
    rw [← stringText_spell]
    match members with
    | [] =>
      obtain _ | ⟨after, _, h⟩ := h
      refine ⟨Field.noBlanks, [⟨before, spell key, between, ⟨before', t, after⟩⟩], _, ?_,
        ⟨_, _, rfl, rfl, hvalue, rfl⟩, fun _ => rfl, h⟩
      exact (JsonText.membersText_cons_append before between before' after _ t [] _).symm
    | second :: members =>
      obtain _ | ⟨after, _, h⟩ := h
      obtain ⟨space, members', rest, rfl, hwritten, hnone, hrest⟩ :=
        exists_membersWrittenAs (second :: members) h
      obtain rfl := hnone (List.cons_ne_nil second members)
      refine ⟨Field.noBlanks, ⟨before, spell key, between, ⟨before', t, after⟩⟩ :: members', rest,
        ?_, ⟨_, _, rfl, rfl, hvalue, hwritten⟩, fun _ => rfl, hrest⟩
      obtain ⟨second', members', rfl, -⟩ := hwritten
      exact (JsonText.membersText_cons_append before between before' after (spell key) t
        (second' :: members') ('\x7d' :: rest)).symm
termination_by structural members

end

/-- A text of a value is a tree of the value with blanks around it. -/
theorem exists_document {value : JsonValue} {s : List Char} (h : SpacedOut value.tokens s) :
    ∃ before t after, String.ofList s = JsonText.document before t after ∧ value.WrittenAs t := by
  rw [← List.append_nil value.tokens] at h
  obtain ⟨before, t, rest, rfl, hwritten, hrest⟩ := exists_writtenAs value h
  obtain ⟨after⟩ := hrest
  exact ⟨before, t, after, rfl, hwritten⟩

namespace MembersWrittenAs

variable {members : List (String × JsonValue)} {members' : List (Member JsonText)}

theorem cons {p : String × JsonValue} (h : MembersWrittenAs (p :: members) members') :
    ∃ first rest, members' = first :: rest ∧ first.name? = some p.1 ∧
      p.2.WrittenAs first.item.value ∧ MembersWrittenAs members rest := by
  obtain ⟨first, rest, hmembers, hkey, hvalue, hrest⟩ := h
  exact ⟨first, rest, hmembers, by rw [Member.name?, hkey, stringOf?_spell], hvalue, hrest⟩

theorem names_eq (h : MembersWrittenAs members members') :
    members'.filterMap (·.name?) = members.map (·.1) := by
  induction members generalizing members' with
  | nil =>
    obtain rfl := h
    rfl
  | cons p members ih =>
    obtain ⟨first, rest, rfl, hname, -, hrest⟩ := h.cons
    rw [List.filterMap_cons_some hname, List.map_cons, ih hrest]

theorem exists_of_mem (h : MembersWrittenAs members members') {member : Member JsonText}
    (hmember : member ∈ members') :
    ∃ p ∈ members, member.name? = some p.1 ∧ p.2.WrittenAs member.item.value := by
  induction members generalizing members' with
  | nil =>
    obtain rfl := h
    cases hmember
  | cons p members ih =>
    obtain ⟨first, rest, rfl, hname, hvalue, hrest⟩ := h.cons
    rcases List.mem_cons.mp hmember with rfl | hmember
    · exact ⟨p, List.mem_cons_self, hname, hvalue⟩
    · obtain ⟨q, hq, hmember⟩ := ih hrest hmember
      exact ⟨q, List.mem_cons_of_mem p hq, hmember⟩

theorem holds (h : MembersWrittenAs members members') {p : String × JsonValue} (hp : p ∈ members) :
    ∃ t, Holds members' p.1 t ∧ p.2.WrittenAs t := by
  induction members generalizing members' with
  | nil => cases hp
  | cons q members ih =>
    obtain ⟨first, rest, rfl, hname, hvalue, hrest⟩ := h.cons
    rcases List.mem_cons.mp hp with rfl | hp
    · exact ⟨_, ⟨first, List.mem_cons_self, hname, rfl⟩, hvalue⟩
    · obtain ⟨t, ⟨member, hmember, hheld⟩, hwritten⟩ := ih hrest hp
      exact ⟨t, ⟨member, List.mem_cons_of_mem first hmember, hheld⟩, hwritten⟩

end MembersWrittenAs

end JsonValue

/-! ## Round trips -/

/-- Every value of a type is read from its text, with any blanks between the tokens, and with the
members of an object in any order. -/
def RoundTrips (α : Type) [JsonCoded α] : Prop :=
  ∀ a : α, decode α (encode a) = .ok a ∧
    ∀ value s, (toJson a).Reordered value → SpacedOut value.tokens s →
      decode α (String.ofList s) = .ok a

theorem roundTrips_of {α : Type} [JsonCoded α]
    (h : ∀ (a : α) (value : JsonValue) (t : JsonText), (toJson a).Reordered value →
      value.WrittenAs t → ∀ before after, decode α (t.document before after) = .ok a) :
    RoundTrips α := by
  intro a
  have hany : ∀ value s, (toJson a).Reordered value → SpacedOut value.tokens s →
      decode α (String.ofList s) = .ok a := by
    intro value s hreordered hspaced
    obtain ⟨before, t, after, hs, hwritten⟩ := JsonValue.exists_document hspaced
    rw [hs]
    exact h a value t hreordered hwritten before after
  exact ⟨hany _ _ (.refl _) (.flatten _), hany⟩

theorem JsonText.word?_of_writtenAs {n : UInt64} {t : JsonText}
    (h : (toJson n).WrittenAs t) : t.word? = some n := by
  obtain rfl := h
  exact Number.word?_ofNat n

theorem JsonText.choice?_of_writtenAs {α : Type} {choices : List α} {label : α → String} {a : α}
    {t : JsonText} (hfind : (choices.find? fun b => label b = label a) = some a)
    (h : (JsonValue.text (label a)).WrittenAs t) : t.choice? choices label = some a := by
  obtain rfl := h
  rw [choice?, name?, stringOf?_spell]
  exact hfind

theorem JsonText.mode?_of_writtenAs {mode : CompilationMode} {t : JsonText}
    (h : (toJson mode).WrittenAs t) : t.mode? = some mode :=
  choice?_of_writtenAs (by cases mode <;> decide) h

/-- A type of named choices round-trips if no two choices have the same name. -/
theorem roundTrips_named {α : Type} (choices : List α) (label : α → String)
    (hfind : ∀ a, (choices.find? fun b => label b = label a) = some a) :
    @RoundTrips α (.named choices label) := by
  let _ : JsonCoded α := .named choices label
  refine roundTrips_of fun a value t hreordered hwritten before after => ?_
  obtain _ | _ := hreordered
  exact Decoder.decode_document
    (t.readName_text before (JsonText.choice?_of_writtenAs (hfind a) hwritten) after)

theorem MethodId.roundTrips : RoundTrips MethodId := by
  refine roundTrips_of fun m value t hreordered hwritten before after => ?_
  obtain _ | _ := hreordered
  have hread := t.readWord_text before (JsonText.word?_of_writtenAs hwritten)
    (show Ends after.val from ?_)
  · refine Decoder.decode_document ?_
    show (readWord _).map _ = _
    rw [hread]
    rfl
  · simpa using ends_append after ends_nil

theorem Tier.roundTrips : RoundTrips Tier := by
  have hnamed := roundTrips_named [Tier.l1, .l2] toString fun tier => by cases tier <;> decide
  exact hnamed

theorem MethodTier.roundTrips : RoundTrips MethodTier := by
  have hnamed := roundTrips_named [MethodTier.interpreted, .l1Compiled, .l2Compiled] toString
    fun tier => by cases tier <;> decide
  exact hnamed

theorem Decision.roundTrips : RoundTrips Decision := by
  have hnamed := roundTrips_named [Decision.none, .compileL1, .compileL2] toString
    fun decision => by cases decision <;> decide
  exact hnamed

theorem CompilationMode.roundTrips : RoundTrips CompilationMode := by
  have hnamed := roundTrips_named [CompilationMode.synchronous, .background] toString
    fun mode => by cases mode <;> decide
  exact hnamed

theorem JsonValue.Reordered.of_object {members : List (String × JsonValue)} {value : JsonValue}
    (h : (JsonValue.object members).Reordered value) :
    ∃ members', value = JsonValue.object members' ∧ members'.Perm members := by
  cases h with
  | refl => exact ⟨members, rfl, .refl members⟩
  | object hperm => exact ⟨_, rfl, hperm⟩

/-! ### Configurations -/

namespace TierConfig

/-- The members of a configuration's object. -/
def members (config : TierConfig) : List (String × JsonValue) := [
  ("l1_threshold", toJson config.l1Threshold),
  ("l2_threshold", toJson config.l2Threshold),
  ("compilation_mode", toJson config.mode),
  ("compile_workers", toJson config.compileWorkers),
  ("shards", toJson config.shards)]

variable {config : TierConfig} {members : List (String × JsonValue)}
  {written : List (Member JsonText)}

/-- The members of a configuration in any order, as they are written. -/
theorem wellTyped_of_writtenAs (hperm : members.Perm config.members)
    (h : JsonValue.MembersWrittenAs members written) : WellTyped written := by
  have hmember : ∀ member ∈ written, ∃ p ∈ config.members, member.name? = some p.1 ∧
      p.2.WrittenAs member.item.value := by
    intro member hmember
    obtain ⟨p, hp, hwritten⟩ := h.exists_of_mem hmember
    exact ⟨p, hperm.mem_iff.mp hp, hwritten⟩
  have hnames : (written.filterMap (·.name?)).Perm fieldNames := by
    rw [h.names_eq]
    exact hperm.map _
  refine ⟨⟨(hnames.nodup_iff.mpr (by decide)).filter _, ?_, ?_⟩, ?_⟩
  · intro member hmem name hname hname'
    obtain ⟨p, hp, hname'', hwritten⟩ := hmember member hmem
    obtain rfl : name = p.1 := Option.some.inj (hname'.symm.trans hname'')
    simp only [TierConfig.members, List.mem_cons, List.not_mem_nil, or_false] at hp
    rcases hp with rfl | rfl | rfl | rfl | rfl
    · rw [JsonText.word?_of_writtenAs hwritten]; rfl
    · rw [JsonText.word?_of_writtenAs hwritten]; rfl
    · exact absurd hname (by simp)
    · rw [JsonText.word?_of_writtenAs hwritten]; rfl
    · rw [JsonText.word?_of_writtenAs hwritten]; rfl
  · intro member hmem hname
    obtain ⟨p, hp, hname', hwritten⟩ := hmember member hmem
    have hp' : p.1 = "compilation_mode" := Option.some.inj (hname'.symm.trans hname)
    simp only [TierConfig.members, List.mem_cons, List.not_mem_nil, or_false] at hp
    rcases hp with rfl | rfl | rfl | rfl | rfl
    · exact absurd hp' (by simp)
    · exact absurd hp' (by simp)
    · rw [JsonText.mode?_of_writtenAs hwritten]; rfl
    · exact absurd hp' (by simp)
    · exact absurd hp' (by simp)
  · intro member hmem
    obtain ⟨p, -, hname, -⟩ := hmember member hmem
    rw [hname]
    rfl

theorem selected_of_writtenAs (hperm : members.Perm config.members)
    (h : JsonValue.MembersWrittenAs members written) : selected written = config := by
  have honce := (wellTyped_of_writtenAs hperm h).once
  have hvalue : ∀ p ∈ config.members, ∃ t, valueOf? written p.1 = some t ∧ p.2.WrittenAs t := by
    intro p hp
    obtain ⟨t, hholds, hwritten⟩ := h.holds (hperm.mem_iff.mpr hp)
    have hname : p.1 ∈ fieldNames := List.mem_map_of_mem hp
    exact ⟨t, (valueOf?_eq_some hname honce).mpr hholds, hwritten⟩
  have hword : ∀ name n, (name, toJson n) ∈ config.members →
      (valueOf? written name).bind (·.word?) = some n := by
    intro name n hmem
    obtain ⟨t, ht, hwritten⟩ := hvalue _ hmem
    rw [ht, Option.bind_some, JsonText.word?_of_writtenAs hwritten]
  have hmode : (valueOf? written "compilation_mode").bind (·.mode?) = some config.mode := by
    obtain ⟨t, ht, hwritten⟩ := hvalue ("compilation_mode", toJson config.mode)
      (by simp [TierConfig.members])
    rw [ht, Option.bind_some, JsonText.mode?_of_writtenAs hwritten]
  rw [selected, hword "l1_threshold" config.l1Threshold (by simp [TierConfig.members]),
    hword "l2_threshold" config.l2Threshold (by simp [TierConfig.members]), hmode,
    hword "compile_workers" config.compileWorkers (by simp [TierConfig.members]),
    hword "shards" config.shards (by simp [TierConfig.members])]
  rfl

theorem roundTrips : RoundTrips TierConfig := by
  refine roundTrips_of fun config value t hreordered hwritten before after => ?_
  obtain ⟨members, rfl, hperm⟩ := hreordered.of_object
  obtain ⟨space, written, rfl, hmembers⟩ := hwritten
  rw [(wellTyped_of_writtenAs hperm hmembers).decode_object,
    selected_of_writtenAs hperm hmembers]

end TierConfig

/-! ### Metrics -/

namespace Metrics

/-- The counter of the given name. -/
def named? (metrics : Metrics) (name : String) : Option UInt64 :=
  metrics.toList.lookup name

theorem toList_set (metrics : Metrics) (name : String) (n : UInt64) :
    (metrics.set name n).toList =
      metrics.toList.map fun entry => if entry.1 = name then (entry.1, n) else entry := by
  unfold set
  split
  case h_9 => simp_all [toList, @eq_comm _ _ name]
  all_goals simp [toList]

theorem named?_set (metrics : Metrics) (name other : String) (n : UInt64) :
    (metrics.set name n).named? other =
      if other = name then (metrics.named? other).map fun _ => n else metrics.named? other := by
  rw [named?, named?, toList_set]
  induction metrics.toList with
  | nil => simp
  | cons entry entries ih =>
    obtain ⟨key, value⟩ := entry
    by_cases hother : other = key
    · subst hother
      by_cases hname : other = name <;> simp [hname]
    · have hkey : (other == key) = false := beq_false_of_ne hother
      have hskip : ∀ (v : UInt64) rest,
          List.lookup other ((key, v) :: rest) = List.lookup other rest := by
        intro v rest
        rw [List.lookup_cons, hkey]
      rw [List.map_cons, hskip, ← ih]
      split <;> exact hskip _ _

theorem named?_of_mem {metrics : Metrics} {entry : String × UInt64} (h : entry ∈ metrics.toList) :
    metrics.named? entry.1 = some entry.2 := by
  simp only [toList, List.mem_cons, List.not_mem_nil, or_false] at h
  rcases h with rfl | rfl | rfl | rfl | rfl | rfl | rfl | rfl <;> rfl

theorem isSome_named? {name : String} (h : name ∈ ({} : Metrics).toList.map (·.1))
    (metrics : Metrics) : (metrics.named? name).isSome := by
  obtain ⟨entry, hentry, rfl⟩ := List.mem_map.mp (show name ∈ metrics.toList.map (·.1) from h)
  rw [named?_of_mem hentry]
  rfl

theorem eq_of_named? {metrics metrics' : Metrics}
    (h : ∀ entry ∈ metrics.toList, metrics'.named? entry.1 = some entry.2) :
    metrics' = metrics := by
  simp only [toList, List.forall_mem_cons] at h
  obtain ⟨h₁, h₂, h₃, h₄, h₅, h₆, h₇, h₈, -⟩ := h
  obtain ⟨n₁, n₂, n₃, n₄, n₅, n₆, n₇, n₈⟩ := metrics'
  obtain rfl : n₁ = _ := Option.some.inj h₁
  obtain rfl : n₂ = _ := Option.some.inj h₂
  obtain rfl : n₃ = _ := Option.some.inj h₃
  obtain rfl : n₄ = _ := Option.some.inj h₄
  obtain rfl : n₅ = _ := Option.some.inj h₅
  obtain rfl : n₆ = _ := Option.some.inj h₆
  obtain rfl : n₇ = _ := Option.some.inj h₇
  obtain rfl : n₈ = _ := Option.some.inj h₈
  rfl

variable {metrics : Metrics} {members : List (String × JsonValue)}
  {written : List (Member JsonText)}

/-- The members of a snapshot in any order, as they are written. -/
theorem exists_entry (hperm : members.Perm (metrics.toList.map fun e => (e.1, toJson e.2)))
    (h : JsonValue.MembersWrittenAs members written) {member : Member JsonText}
    (hmember : member ∈ written) :
    ∃ entry ∈ metrics.toList, member.name? = some entry.1 ∧
      member.item.value.word? = some entry.2 := by
  obtain ⟨p, hp, hname, hwritten⟩ := h.exists_of_mem hmember
  obtain ⟨entry, hentry, rfl⟩ := List.mem_map.mp (hperm.mem_iff.mp hp)
  exact ⟨entry, hentry, hname, JsonText.word?_of_writtenAs hwritten⟩

theorem eq_of_mem_fields {field : Field Metrics} (h : field ∈ schema.fields) :
    field = .of field.name .word fun n metrics => metrics.set field.name n := by
  obtain ⟨entry, -, rfl⟩ := List.mem_map.mp h
  rfl

theorem fits_of_writtenAs (hperm : members.Perm (metrics.toList.map fun e => (e.1, toJson e.2)))
    (h : JsonValue.MembersWrittenAs members written) : Fits schema.fields [] written where
  named := by
    intro member hmember
    obtain ⟨entry, -, hname, -⟩ := exists_entry hperm h hmember
    rw [hname]
    rfl
  accepted := by
    intro member hmember field hfield
    obtain ⟨entry, -, -, hword⟩ := exists_entry hperm h hmember
    rw [eq_of_mem_fields (Member.field?_eq_some hfield).1]
    exact Field.accepts_of _ _ fun before rest hrest =>
      member.item.value.readWord_text before hword hrest
  once := by
    have hnodup : (written.filterMap (·.name?)).Nodup := by
      rw [h.names_eq]
      refine (hperm.map _).nodup_iff.mpr ?_
      rw [List.map_map]
      show (({} : Metrics).toList.map (·.1)).Nodup
      decide
    rw [List.append_nil, map_name_field?]
    exact hnodup.filter _

theorem record_of_writtenAs (hperm : members.Perm (metrics.toList.map fun e => (e.1, toJson e.2)))
    (h : JsonValue.MembersWrittenAs members written) :
    (Progress.ofMembers schema written).record = metrics := by
  have hfits := fits_of_writtenAs hperm h
  have hnodup : (schema.fields.map (·.name)).Nodup := by decide
  have honce := hfits.once
  rw [List.append_nil] at honce
  refine eq_of_named? fun entry hentry => ?_
  have hname : entry.1 ∈ schema.fields.map (·.name) := List.mem_map_of_mem hentry
  obtain ⟨field, hmem, hfield⟩ := List.mem_map.mp hname
  rw [← hfield] at hname ⊢
  have hself : ∀ member ∈ written, member.name? = some field.name →
      ∃ v, member.item.value.word?.map some = some v ∧
        ∀ metrics, (field.put member.item.value metrics).named? field.name = v := by
    intro member hmember _
    obtain ⟨found, -, -, hword⟩ := exists_entry hperm h hmember
    refine ⟨some found.2, by rw [hword]; rfl, fun metrics => ?_⟩
    obtain ⟨n, hn⟩ := Option.isSome_iff_exists.mp (isSome_named? hname metrics)
    rw [eq_of_mem_fields hmem, Field.put_of _ _ fun before rest hrest =>
      member.item.value.readWord_text before hword hrest]
    show (metrics.set field.name found.2).named? field.name = _
    rw [named?_set, if_pos rfl, hn, Option.map_some]
  have hother : ∀ other ∈ schema.fields, other.name ≠ field.name →
      ∀ t metrics, (other.put t metrics).named? field.name = metrics.named? field.name := by
    intro other hother hne t metrics
    rw [eq_of_mem_fields hother]
    refine Field.get_put_of (fun metrics : Metrics => metrics.named? field.name) ?_ _ _ t metrics
    intro n metrics
    show (metrics.set other.name n).named? field.name = _
    rw [named?_set, if_neg hne.symm]
  have hget := get_members { record := {} } (fun metrics => metrics.named? field.name)
    (fun t => t.word?.map some) hnodup hmem hself hother honce
  obtain ⟨t, hholds, hwritten⟩ :=
    h.holds (hperm.mem_iff.mpr (List.mem_map.mpr ⟨entry, hentry, rfl⟩))
  rw [map_name_field?] at honce
  have hvalue : valueOf? written field.name = some t :=
    (valueOf?_eq_some hname honce).mpr (hfield ▸ hholds)
  rw [hvalue, Option.bind_some, JsonText.word?_of_writtenAs hwritten] at hget
  exact hget

theorem complete_of_writtenAs
    (hperm : members.Perm (metrics.toList.map fun e => (e.1, toJson e.2)))
    (h : JsonValue.MembersWrittenAs members written) :
    complete schema (.ofMembers schema written) = .ok metrics := by
  have hall : ∀ field ∈ schema.fields, field.name ∈ (Progress.ofMembers schema written).seen := by
    intro field hmem
    have hname : field.name ∈ metrics.toList.map (·.1) := List.mem_map_of_mem hmem
    obtain ⟨entry, hentry, hfield⟩ := List.mem_map.mp hname
    obtain ⟨t, ⟨member, hmember, hname', -⟩, -⟩ :=
      h.holds (hperm.mem_iff.mpr (List.mem_map.mpr ⟨entry, hentry, rfl⟩))
    refine mem_seen_members.mpr (.inr ⟨member, hmember, field, ?_, rfl⟩)
    exact Member.field?_of_name? (by decide) hmem (hfield ▸ hname')
  rw [complete, if_neg fun hmissing => hmissing.2 hall, record_of_writtenAs hperm h]

theorem roundTrips : RoundTrips Metrics := by
  refine roundTrips_of fun metrics value t hreordered hwritten before after => ?_
  obtain ⟨members, rfl, hperm⟩ := hreordered.of_object
  obtain ⟨space, written, rfl, hmembers⟩ := hwritten
  exact Decoder.decode_document (readRecord_object before space (fits_of_writtenAs hperm hmembers)
    (complete_of_writtenAs hperm hmembers) after)

end Metrics

/-! ## Main result -/

/-- **Decoding undoes encoding.** Every value of the types below is read back from its compact text,
and from any text with the same tokens, blanks between these, and the members of an object in any
order. A configuration need not be valid for that. -/
theorem decoding_undoes_encoding :
    RoundTrips MethodId ∧ RoundTrips Tier ∧ RoundTrips Decision ∧ RoundTrips MethodTier ∧
      RoundTrips CompilationMode ∧ RoundTrips TierConfig ∧ RoundTrips Metrics :=
  ⟨MethodId.roundTrips, Tier.roundTrips, Decision.roundTrips, MethodTier.roundTrips,
    CompilationMode.roundTrips, TierConfig.roundTrips, Metrics.roundTrips⟩

end TieredDispatch
