import Mathlib.Data.List.Nodup
import TieredDispatch.Proofs.Scanning

/-!
# Decoding what is written

The decoders read back what a syntax tree stands for: words (`readWord_text`), names
(`readName_text`) and records. A record is read field by field. A field **accepts** a value if it
reads it wherever it is written (`Field.Accepts`), and stores it as it reads it (`Field.put`). Then
the members of an object are read one after the other (`readMembers_text`): those of a field are
stored, in the order in which they come, the others are passed over, a field that comes twice is
refused at its second key (`readRecord_again`), and a key that stands for no text is refused
wherever it comes (`readRecord_unnamed`). The elements of an array are stored as the fields in
their order (`readElements_text`).
-/

namespace TieredDispatch

open Json

/-! ## Words -/

namespace Json

theorem Number.word?_numeral {n : Number} {w : UInt64} (h : n.word? = some w) :
    n.numeral.word? = some w := by
  obtain ⟨negative, whole, fraction, exponent⟩ := n
  unfold Number.word? at h
  split at h
  · rename_i hplain
    obtain ⟨hnegative, hfraction, hexponent, hsmall⟩ := hplain
    obtain rfl : negative = false := hnegative
    obtain rfl : fraction = none := by simpa using hfraction
    obtain rfl : exponent = none := by simpa using hexponent
    simpa [Number.numeral, Numeral.word?, Numeral.significand, hsmall] using h
  · cases h

end Json

namespace JsonText

variable {t : JsonText} {rest : List Char}

/-- A word is read off its text. -/
theorem readWord_text {w : UInt64} (before : Blanks) (ht : t.word? = some w) (h : Ends rest) :
    readWord (before ++ (t.text ++ rest)) = .ok (w, rest) := by
  cases t with
  | number n =>
    have hnumeral : numeral .truncated (n.text ++ rest) = .ok (n.numeral, rest) := numeral_text n h
    obtain ⟨c, chars, htext, hfirst⟩ := n.exists_cons
    have hnumber : (n.text ++ rest).head?.any fun c => c == '-' || isDigit c := by
      rcases hfirst with rfl | hdigit
      · simp [htext]
      · simp [htext, hdigit]
    rw [readWord, skipBlank_append, skipBlank_text]
    refine (if_pos hnumber).trans ?_
    rw [text, hnumeral, ok_bind]
    simp only [Number.word?_numeral ht]
    rfl
  | _ => cases ht

/-! ## Names -/

variable {γ : Type} {choices : List γ} {label : γ → String} {v : γ}

theorem choose_of_find? {chars : List Char}
    (h : (choices.find? fun v => label v = String.ofList chars) = some v) :
    choose choices label chars = .ok v := by
  have hsame : (fun v => decide ((label v).toList = chars)) =
      fun v => decide (label v = String.ofList chars) := by
    funext v
    simp [← String.toList_inj]
  rw [choose, hsame, h]

/-- A name is read behind its opening quote. -/
theorem readLabel_text {key : List StringPiece} {name : String} (hkey : stringOf? key = some name)
    (h : (choices.find? fun v => label v = name) = some v) (rest : List Char) :
    readLabel choices label (key.flatMap (·.text) ++ '"' :: rest) = .ok (v, rest) := by
  obtain ⟨chars, hchars, rfl⟩ := Option.map_eq_some_iff.mp hkey
  rw [readLabel, stringBody_text hchars, ok_bind]
  simp only [choose_of_find? h]
  rfl

/-- The colon, `null` and the end of an object are read behind its only key. -/
theorem readUnit_text (between before after : Blanks) (rest : List Char) :
    readUnit (between ++ ':' :: (before ++ (null.text ++ (after ++ '\x7d' :: rest)))) =
      .ok rest := by
  have hnull : readNull (before ++ (null.text ++ (after ++ '\x7d' :: rest))) =
      .ok (after ++ '\x7d' :: rest) := by
    rw [readNull, skipBlank_append, skipBlank_text]
    rfl
  have hend : readEnd '\x7d' (after ++ '\x7d' :: rest) = .ok rest := by
    rw [readEnd, skipBlank_append, skipBlank_cons rfl]
    rfl
  rw [readUnit, colon_append, ok_bind, hnull, ok_bind, hend]

theorem readName_object {s t u : List Char} (hs : skipBlank s = '\x7b' :: t)
    (ht : skipBlank t = '"' :: u) : readName choices label s = (do
      let (v, rest) ← readLabel choices label u
      let rest ← readUnit rest
      pure (v, rest)) := by
  rw [readName, hs]
  simp only [ht]

/-- A name is read, alone or as the only key of an object. -/
theorem readName_text (before₀ : Blanks) (ht : t.choice? choices label = some v)
    (rest : List Char) :
    readName choices label (before₀ ++ (t.text ++ rest)) = .ok (v, rest) := by
  obtain ⟨name, hname, hfind⟩ := Option.bind_eq_some_iff.mp ht
  unfold name? at hname
  split at hname
  · rename_i pieces
    rw [readName, skipBlank_append, skipBlank_text, text_string_append]
    exact readLabel_text hname hfind rest
  · rename_i space before key between before' after
    have hopens : skipBlank (before₀ ++ ((object space [⟨before, key, between,
        ⟨before', null, after⟩⟩]).text ++ rest)) =
        '\x7b' :: (space ++ (before ++ '"' :: (key.flatMap (·.text) ++ '"' :: (between ++ ':' ::
          (before' ++ (null.text ++ (after ++ '\x7d' :: rest))))))) := by
      rw [skipBlank_append, skipBlank_text, text_object_append, membersText_cons_append]
      simp [stringText, membersText]
    rw [readName_object hopens (by rw [skipBlank_append, skipBlank_append, skipBlank_cons rfl]),
      readLabel_text hname hfind, ok_bind]
    simp only [readUnit_text, ok_bind]
    rfl
  · cases hname

end JsonText

/-! ## Records -/

variable {ρ : Type}

namespace Field

/-- How a field stores a value: as it is read off the value's text. -/
def put (field : Field ρ) (t : JsonText) : ρ → ρ :=
  match field.value.read t.text with
  | .ok (store, _) => store
  | .error _ => id

/-- A field accepts a value if it is read wherever it is written. -/
def Accepts (field : Field ρ) (t : JsonText) : Prop :=
  ∀ (before : Blanks) (rest : List Char), Ends rest →
    field.value.read (before ++ (t.text ++ rest)) = .ok (field.put t, rest)

variable {γ : Type} {t : JsonText} {v : γ} {decoder : Decoder γ}

/-- No blanks. -/
def noBlanks : Blanks := ⟨[], List.forall_mem_nil _⟩

theorem put_of (name : String) (set : γ → ρ → ρ)
    (h : ∀ (before : Blanks) (rest : List Char), Ends rest →
      decoder.read (before ++ (t.text ++ rest)) = .ok (v, rest)) :
    (Field.of name decoder set).put t = set v := by
  have hread : decoder.read t.text = .ok (v, []) := by
    simpa [noBlanks] using h noBlanks [] ends_nil
  simp [put, Field.of, Decoder.map, hread, Except.map]

theorem accepts_of (name : String) (set : γ → ρ → ρ)
    (h : ∀ (before : Blanks) (rest : List Char), Ends rest →
      decoder.read (before ++ (t.text ++ rest)) = .ok (v, rest)) :
    (Field.of name decoder set).Accepts t := by
  intro before rest hrest
  rw [put_of name set h]
  simp [Field.of, Decoder.map, h before rest hrest, Except.map]

end Field

namespace Json

/-- The field that a member is for. -/
def Member.field? (fields : List (Field ρ)) (member : Member JsonText) : Option (Field ρ) :=
  member.name?.bind fun name => fields.find? fun field => field.name = name

/-- A field is read. -/
def Progress.put (progress : Progress ρ) (field : Field ρ) (t : JsonText) : Progress ρ :=
  ⟨field.name :: progress.seen, field.put t progress.record⟩

/-- A member is read: it is stored if it is for a field. -/
def Progress.member (fields : List (Field ρ)) (progress : Progress ρ) (member : Member JsonText) :
    Progress ρ :=
  (member.field? fields).elim progress fun field => progress.put field member.item.value

variable {fields : List (Field ρ)} {progress : Progress ρ} {member : Member JsonText}
  {members : List (Member JsonText)} {field : Field ρ} {s t rest : List Char}

theorem find?_of_field? {chars : List Char} (h : unescape member.key = some chars) :
    (fields.find? fun field => field.name.toList = chars) = member.field? fields := by
  have hsame : (fun field : Field ρ => decide (field.name.toList = chars)) =
      fun field => decide (field.name = String.ofList chars) := by
    funext field
    simp [← String.toList_inj]
  rw [hsame, Member.field?, Member.name?, stringOf?, h]
  rfl

theorem stringText_append (key : List StringPiece) (rest : List Char) :
    stringText key ++ rest = '"' :: (key.flatMap (·.text) ++ '"' :: rest) := by
  simp [stringText]

/-- A member of a field that was not read before is stored. -/
theorem readMember_field (hfield : member.field? fields = some field)
    (hfresh : field.name ∉ progress.seen) (haccepts : field.Accepts member.item.value)
    (hrest : Ends rest) :
    readMember fields progress (stringText member.key ++ (member.after ++ ':' ::
      (member.item.before ++ (member.item.value.text ++ rest)))) =
      .ok (progress.put field member.item.value, rest) := by
  obtain ⟨name, hname, -⟩ := Option.bind_eq_some_iff.mp hfield
  obtain ⟨chars, hchars, -⟩ := Option.map_eq_some_iff.mp hname
  rw [stringText_append, readMember, stringBody_text hchars, ok_bind]
  simp only [find?_of_field? hchars, hfield, if_neg hfresh, colon_append, ok_bind,
    haccepts _ _ hrest]
  rfl

/-- A member of no field is passed over. -/
theorem readMember_other (hname : member.name?.isSome) (hother : member.field? fields = none)
    (hrest : Ends rest) :
    readMember fields progress (stringText member.key ++ (member.after ++ ':' ::
      (member.item.before ++ (member.item.value.text ++ rest)))) = .ok (progress, rest) := by
  obtain ⟨name, hname⟩ := Option.isSome_iff_exists.mp hname
  obtain ⟨chars, hchars, -⟩ := Option.map_eq_some_iff.mp hname
  rw [stringText_append, readMember, stringBody_text hchars, ok_bind]
  simp only [find?_of_field? hchars, hother, colon_append, ok_bind,
    JsonText.skipValue_text _ _ hrest]
  rfl

/-- A field that was read before is refused at its key, whatever follows. -/
theorem readMember_again (hfield : member.field? fields = some field)
    (hseen : field.name ∈ progress.seen) :
    readMember fields progress (stringText member.key ++ rest) = .error .mismatched := by
  obtain ⟨name, hname, -⟩ := Option.bind_eq_some_iff.mp hfield
  obtain ⟨chars, hchars, -⟩ := Option.map_eq_some_iff.mp hname
  rw [stringText_append, readMember, stringBody_text hchars, ok_bind]
  simp only [find?_of_field? hchars, hfield, if_pos hseen]
  rfl

/-- A key that stands for no text is refused, whatever follows. -/
theorem readMember_unnamed (hname : member.name? = none) :
    readMember fields progress (stringText member.key ++ rest) = .error .malformed := by
  rw [stringText_append, readMember, stringBody_malformed (Option.map_eq_none_iff.mp hname)]
  rfl

/-! ### Items and their ends -/

theorem next_first {close c : Char} (hs : skipBlank s = c :: t) (hc : c ≠ close) :
    next close true s = .ok (.item (c :: t)) := by
  rw [next, hs]
  exact if_neg hc

theorem next_comma {close c : Char} (hs : skipBlank s = ',' :: rest) (hclose : ',' ≠ close)
    (ht : skipBlank rest = c :: t) (hc : c ≠ close) :
    next close false s = .ok (.item (c :: t)) := by
  rw [next, hs]
  simp [hclose, ht, hc]

theorem next_close {close : Char} (first : Bool) (hs : skipBlank s = close :: rest) :
    next close first s = .ok (.finish rest) := by
  rw [next, hs]
  exact if_pos rfl

/-! ### Members one after the other -/

theorem readMembers_finish {first : Bool} (h : next '\x7d' first s = .ok (.finish rest)) :
    readMembers fields first progress s = .ok (progress, rest) := by
  rw [readMembers.eq_def]
  split <;> simp_all

theorem readMembers_item {first : Bool} {progress' : Progress ρ}
    (h : next '\x7d' first s = .ok (.item t))
    (hmember : readMember fields progress t = .ok (progress', rest)) :
    readMembers fields first progress s = readMembers fields false progress' rest := by
  rw [readMembers.eq_def]
  split
  · simp_all
  · simp_all
  · split <;> simp_all

theorem readMembers_error {first : Bool} {e : JsonError} (h : next '\x7d' first s = .ok (.item t))
    (hmember : readMember fields progress t = .error e) :
    readMembers fields first progress s = .error e := by
  rw [readMembers.eq_def]
  split
  · simp_all
  · simp_all
  · split <;> simp_all

theorem readMembers_congr {first : Bool} (h : skipBlank s = skipBlank t) :
    readMembers fields first progress s = readMembers fields first progress t := by
  have hnext : next '\x7d' first s = next '\x7d' first t := by
    rw [next, h, next]
  rw [readMembers.eq_def fields first progress t]
  split
  · rw [readMembers.eq_def]
    split <;> simp_all
  · rw [← hnext] at *
    exact readMembers_finish ‹_›
  · split
    · exact readMembers_error (hnext.trans ‹_›) ‹_›
    · exact readMembers_item (hnext.trans ‹_›) ‹_›

/-- Members that can be read: their keys stand for texts, those of a field hold a value of its type,
and no field comes twice, or was read before. -/
structure Fits (fields : List (Field ρ)) (seen : List String) (members : List (Member JsonText)) :
    Prop where
  named : ∀ member ∈ members, member.name?.isSome
  accepted : ∀ member ∈ members, ∀ field, member.field? fields = some field →
    field.Accepts member.item.value
  once : ((members.filterMap (·.field? fields)).map (·.name) ++ seen).Nodup

/-- One member is read. -/
theorem Fits.readMember (h : Fits fields progress.seen (member :: members)) (hrest : Ends rest) :
    Json.readMember fields progress (stringText member.key ++ (member.after ++ ':' ::
      (member.item.before ++ (member.item.value.text ++ rest)))) =
      .ok (progress.member fields member, rest) := by
  rw [Progress.member]
  cases hfield : member.field? fields with
  | none => exact readMember_other (h.named member List.mem_cons_self) hfield hrest
  | some field =>
    have honce := h.once
    rw [List.filterMap_cons_some hfield, List.map_cons, List.cons_append, List.nodup_cons] at honce
    have hfresh : field.name ∉ progress.seen := fun hseen =>
      honce.1 (List.mem_append_right _ hseen)
    exact readMember_field hfield hfresh (h.accepted member List.mem_cons_self field hfield) hrest

/-- The members behind the first one can be read after it. -/
theorem Fits.tail (h : Fits fields progress.seen (member :: members)) :
    Fits fields (progress.member fields member).seen members where
  named := fun member' hmember' => h.named member' (List.mem_cons_of_mem member hmember')
  accepted := fun member' hmember' => h.accepted member' (List.mem_cons_of_mem member hmember')
  once := by
    have honce := h.once
    rw [Progress.member]
    cases hfield : member.field? fields with
    | none => rwa [List.filterMap_cons_none hfield] at honce
    | some field =>
      rw [List.filterMap_cons_some hfield, List.map_cons, List.cons_append] at honce
      exact (List.nodup_middle).mpr honce

theorem ends_membersText (members : List (Member JsonText)) (hrest : Ends rest) :
    Ends (JsonText.membersText false members ++ rest) := by
  cases members with
  | nil => exact hrest
  | cons member members => exact ends_cons (.inl rfl) _

theorem next_members {first : Bool} (member : Member JsonText) (members : List (Member JsonText))
    (hs : skipBlank s = skipBlank (JsonText.membersText first (member :: members) ++ rest)) :
    next '\x7d' first s = .ok (.item (stringText member.key ++ (member.after ++ ':' ::
      (member.item.before ++ (member.item.value.text ++
        (member.item.after ++ (JsonText.membersText false members ++ rest))))))) := by
  obtain ⟨before, key, between, ⟨before', value, after⟩⟩ := member
  cases first with
  | true =>
    rw [JsonText.membersText_cons_append, skipBlank_append] at hs
    exact next_first (hs.trans (skipBlank_cons rfl _)) (by decide)
  | false =>
    rw [JsonText.membersText_false_cons, List.cons_append, skipBlank_cons rfl] at hs
    refine next_comma hs (by decide) ?_ (by decide)
    rw [JsonText.membersText_cons_append, skipBlank_append]
    exact skipBlank_cons rfl _

/-- Members are read one after the other. -/
theorem readMembers_text (first : Bool) (h : Fits fields progress.seen members)
    (hs : skipBlank s = skipBlank (JsonText.membersText first members ++ rest))
    (hrest : Ends rest) :
    readMembers fields first progress s = readMembers fields (first && members.isEmpty)
      (members.foldl (Progress.member fields) progress) rest := by
  induction members generalizing first progress s with
  | nil =>
    rw [List.isEmpty_nil, Bool.and_true]
    exact readMembers_congr hs
  | cons member members ih =>
    have hread := h.readMember (ends_append member.item.after (ends_membersText members hrest))
    rw [readMembers_item (next_members member members hs) hread,
      ih false h.tail (skipBlank_append member.item.after _)]
    simp

/-- A key that stands for no text is found, wherever it comes. -/
theorem readMembers_unnamed (first : Bool) (h : Fits fields progress.seen members)
    {unnamed : Member JsonText} (hname : unnamed.name? = none) (others : List (Member JsonText))
    (hs : skipBlank s =
      skipBlank (JsonText.membersText first (members ++ unnamed :: others) ++ rest))
    (hrest : Ends rest) :
    readMembers fields first progress s = .error .malformed := by
  induction members generalizing first progress s with
  | nil => exact readMembers_error (next_members unnamed others hs) (readMember_unnamed hname)
  | cons member members ih =>
    have hread := h.readMember (ends_append member.item.after
      (ends_membersText (members ++ unnamed :: others) hrest))
    rw [readMembers_item (next_members member _ hs) hread]
    exact ih false h.tail (skipBlank_append member.item.after _)

/-! ### Elements one after the other -/

theorem readEnd_of_skipBlank {close : Char} (hs : skipBlank s = close :: rest) :
    readEnd close s = .ok rest := by
  rw [readEnd, hs]
  exact if_pos rfl

/-- The fields are read off an array's items, one after the other. -/
def Progress.items (progress : Progress ρ) (fields : List (Field ρ))
    (items : List (Item JsonText)) : Progress ρ :=
  (fields.zip items).foldl (fun progress p => progress.put p.1 p.2.value) progress

theorem next_items {first : Bool} (before after : Blanks) (value : JsonText)
    (items : List (Item JsonText))
    (hs : skipBlank s = skipBlank (JsonText.itemsText first (⟨before, value, after⟩ :: items) ++
      ']' :: rest)) :
    next ']' first s = .ok (.item (value.text ++ (after ++
      (JsonText.itemsText false items ++ ']' :: rest)))) := by
  obtain ⟨c, chars, htext, hblank, hc, -⟩ := value.exists_cons
  have hvalue :
      skipBlank (JsonText.itemsText true (⟨before, value, after⟩ :: items) ++ ']' :: rest) =
      c :: (chars ++ (after ++ (JsonText.itemsText false items ++ ']' :: rest))) := by
    rw [JsonText.itemsText_cons_append, skipBlank_append, htext, List.cons_append,
      skipBlank_cons hblank]
  rw [htext, List.cons_append]
  cases first with
  | true => exact next_first (hs.trans hvalue) hc
  | false =>
    rw [JsonText.itemsText_false_cons, List.cons_append, skipBlank_cons rfl] at hs
    exact next_comma hs (by decide) hvalue hc

/-- Elements are read one after the other, each as the next field. -/
theorem readElements_text {items : List (Item JsonText)} (first : Bool)
    (hlength : items.length ≤ fields.length)
    (haccepts : ∀ p ∈ fields.zip items, p.1.Accepts p.2.value)
    (hs : skipBlank s = skipBlank (JsonText.itemsText first items ++ ']' :: rest)) :
    readElements first progress s fields = .ok (progress.items fields items, rest) := by
  induction fields generalizing items first progress s with
  | nil =>
    obtain rfl : items = [] := List.length_eq_zero_iff.mp (Nat.le_zero.mp hlength)
    rw [readElements, readEnd_of_skipBlank (hs.trans (skipBlank_cons rfl _))]
    rfl
  | cons field fields ih =>
    cases items with
    | nil =>
      rw [readElements, next_close first (hs.trans (skipBlank_cons rfl _)), ok_bind]
      rfl
    | cons item items =>
      obtain ⟨before, value, after⟩ := item
      rw [List.zip_cons_cons, List.forall_mem_cons] at haccepts
      have htail := JsonText.isTail_items items rest
      have hread := haccepts.1 Field.noBlanks _ (ends_append after htail.ends)
      rw [readElements, next_items before after value items hs, ok_bind]
      show (field.value.read (value.text ++ _) >>= _) = _
      rw [show field.value.read (value.text ++ _) = _ from hread, ok_bind]
      exact ih false (Nat.le_of_succ_le_succ hlength) haccepts.2 (skipBlank_append after _)

/-! ### Whole records -/

/-- The members of an object are read into a record. -/
def Progress.ofMembers (schema : Schema ρ) (members : List (Member JsonText)) : Progress ρ :=
  members.foldl (Progress.member schema.fields) { record := schema.initial }

variable {schema : Schema ρ} {record : ρ}

theorem readRecord_object (before space : Blanks) (h : Fits schema.fields [] members)
    (hcomplete : complete schema (.ofMembers schema members) = .ok record) (rest : List Char) :
    readRecord schema (before ++ ((JsonText.object space members).text ++ rest)) =
      .ok (record, rest) := by
  have hmembers : readMembers schema.fields true { record := schema.initial }
      (space ++ (JsonText.membersText true members ++ '\x7d' :: rest)) =
      .ok (.ofMembers schema members, rest) := by
    rw [readMembers_text true h (skipBlank_append space _)
      (ends_cons (.inr (.inr (.inl rfl))) rest)]
    exact readMembers_finish (next_close _ (skipBlank_cons rfl rest))
  rw [readRecord, skipBlank_append, JsonText.skipBlank_text, JsonText.text_object_append]
  simp only [hmembers, ok_bind, hcomplete]
  rfl

/-- An object with a key that stands for no text is refused. -/
theorem readRecord_unnamed (before space : Blanks) (h : Fits schema.fields [] members)
    {unnamed : Member JsonText} (hname : unnamed.name? = none) (others : List (Member JsonText))
    (rest : List Char) :
    readRecord schema (before ++ ((JsonText.object space (members ++ unnamed :: others)).text ++
      rest)) = .error .malformed := by
  have hmembers : readMembers schema.fields true { record := schema.initial }
      (space ++ (JsonText.membersText true (members ++ unnamed :: others) ++ '\x7d' :: rest)) =
      .error .malformed :=
    readMembers_unnamed true h hname others (skipBlank_append space _)
      (ends_cons (.inr (.inr (.inl rfl))) rest)
  rw [readRecord, skipBlank_append, JsonText.skipBlank_text, JsonText.text_object_append]
  simp only [hmembers]
  rfl

theorem readRecord_array (before space : Blanks) {items : List (Item JsonText)}
    (hlength : items.length ≤ schema.fields.length)
    (haccepts : ∀ p ∈ schema.fields.zip items, p.1.Accepts p.2.value)
    (hcomplete : complete schema (({ record := schema.initial } : Progress ρ).items schema.fields
      items) = .ok record) (rest : List Char) :
    readRecord schema (before ++ ((JsonText.array space items).text ++ rest)) =
      .ok (record, rest) := by
  have hitems : readElements true { record := schema.initial }
      (space ++ (JsonText.itemsText true items ++ ']' :: rest)) schema.fields =
      .ok (({ record := schema.initial } : Progress ρ).items schema.fields items, rest) :=
    readElements_text true hlength haccepts (skipBlank_append space _)
  rw [readRecord, skipBlank_append, JsonText.skipBlank_text, JsonText.text_array_append]
  simp only [hitems, ok_bind, hcomplete]
  rfl

theorem mem_seen_member {name : String} :
    name ∈ (progress.member fields member).seen ↔
      name ∈ progress.seen ∨ ∃ field, member.field? fields = some field ∧ field.name = name := by
  rw [Progress.member]
  cases hfield : member.field? fields with
  | none => simp
  | some field => simp [Progress.put, or_comm, eq_comm]

/-- The fields that were read are those that some member is for. -/
theorem mem_seen_members {name : String} :
    name ∈ (members.foldl (Progress.member fields) progress).seen ↔ name ∈ progress.seen ∨
      ∃ member ∈ members, ∃ field, member.field? fields = some field ∧ field.name = name := by
  induction members generalizing progress with
  | nil => simp
  | cons member members ih => simp [ih, mem_seen_member, or_assoc]

/-- A field that comes twice is found at its second key, whatever follows that. -/
theorem readRecord_again (before space : Blanks) (h : Fits schema.fields [] members)
    {again : Member JsonText} (hfield : again.field? schema.fields = some field)
    (hseen : ∃ member ∈ members, member.field? schema.fields = some field) (rest : List Char) :
    readRecord schema (before ++ '\x7b' :: (space ++ (JsonText.membersText true members ++
      ',' :: (again.before ++ (stringText again.key ++ rest))))) = .error .mismatched := by
  obtain ⟨member, hmember, hmemberField⟩ := hseen
  have hagain : field.name ∈ (members.foldl (Progress.member schema.fields)
      ({ record := schema.initial } : Progress ρ)).seen :=
    mem_seen_members.mpr (.inr ⟨member, hmember, field, hmemberField, rfl⟩)
  have hsome : members.isEmpty = false := by
    cases members with
    | nil => cases hmember
    | cons _ _ => rfl
  have hkey : skipBlank (again.before ++ (stringText again.key ++ rest)) =
      stringText again.key ++ rest := by
    rw [skipBlank_append]
    exact skipBlank_cons rfl _
  have hmembers : readMembers schema.fields true { record := schema.initial }
      (space ++ (JsonText.membersText true members ++
        ',' :: (again.before ++ (stringText again.key ++ rest)))) = .error .mismatched := by
    rw [readMembers_text true h (skipBlank_append space _) (ends_cons (.inl rfl) _), hsome]
    exact readMembers_error (next_comma (skipBlank_cons rfl _) (by decide) hkey (by decide))
      (readMember_again hfield hagain)
  rw [readRecord, skipBlank_append, skipBlank_cons rfl]
  simp only [hmembers]
  rfl

end Json

/-! ## Whole texts -/

/-- A whole text: a value, and the blanks around it. -/
def JsonText.document (before : Blanks) (t : JsonText) (after : Blanks) : String :=
  String.ofList (before ++ (t.text ++ after))

namespace Decoder

variable {γ : Type} {decoder : Decoder γ} {v : γ} {t : JsonText} {before after : Blanks}

theorem decode_document (h : decoder.read (before ++ (t.text ++ after)) = .ok (v, after)) :
    decoder.decode (t.document before after) = .ok v := by
  have hblank : skipBlank after.val = [] := by
    have hskip := skipBlank_append after []
    rwa [List.append_nil] at hskip
  rw [decode, JsonText.document, String.toList_ofList, h, ok_bind]
  exact if_pos hblank

end Decoder

end TieredDispatch
