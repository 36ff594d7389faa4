import EdmCommands.Proofs.Json.Pretty
import EdmCommands.Proofs.Fallible

/-!
# EdmCommands.Proofs.Doc.Record

Records decoded from objects that have their fields, composed as the records are.

* `Record.Reads`: the fields of an object are fields of the record and make this value.
* `Reads.seq`: what two records read, they read together when they share no name.
* `decode_of_reads`: the record is decoded from the object.
-/

namespace EdmCommands
namespace Record

variable {α β : Type} {r : Record α} {f : Record (α → β)} {x : Record α}
  {fields others : List (String × Json)} {name : String} {decode : Decoder α} {a missing : α}
  {g : α → β}

/-- Fields put into the slots of a record, one after another. -/
def putAll (r : Record α) (fields : List (String × Json)) (slots : r.Slots) :
    Except DocFault r.Slots :=
  fields.foldlM (fun slots field => r.put .json field.1 field.2.toDoc slots) slots

/-- The fields are fields of the record, and together they make the value. -/
structure Reads (r : Record α) (fields : List (String × Json)) (a : α) : Prop where
  known : ∀ field ∈ fields, field.1 ∈ r.names
  fills : ∃ slots, r.putAll fields r.empty = .ok slots ∧
    ∀ absent, r.finish absent true slots = .ok a

theorem putEntries_toEntries (known : ∀ field ∈ fields, field.1 ∈ r.names) (slots : r.Slots) :
    r.putEntries .json (Json.toEntries fields) slots = r.putAll fields slots := by
  induction fields generalizing slots with
  | nil => rfl
  | cons field rest ih =>
    rw [List.forall_mem_cons] at known
    obtain ⟨hknown, hrest⟩ := known
    rw [Json.toEntries, putEntries, putAll, List.foldlM_cons]
    simp only [Doc.untagged, List.contains_iff_mem, hknown, if_true]
    cases r.put .json field.1 field.2.toDoc slots with
    | error fault => rfl
    | ok filled => exact ih hrest filled

/-- A record is decoded from an object with its fields. -/
theorem decode_of_reads (typeName : String) (h : r.Reads fields a) :
    Record.decode typeName r .json (Json.obj fields).toDoc = .ok a := by
  obtain ⟨slots, hslots, hfinish⟩ := h.fills
  rw [← putEntries_toEntries h.known] at hslots
  simp only [Record.decode, Json.toDoc, Doc.untagged, hslots, hfinish]

theorem put_seq (name : String) (d : Doc) (slots : (f <*> x).Slots) :
    (f <*> x).put .json name d slots =
      if f.names.contains name then (f.put .json name d slots.1).map fun s => (s, slots.2)
      else (x.put .json name d slots.2).map fun s => (slots.1, s) := rfl

theorem finish_seq (missing : String → DocFault) (byName : Bool) (left : f.Slots)
    (right : x.Slots) :
    (f <*> x).finish missing byName (left, right) =
      match f.finish missing byName left with
      | .error fault => Except.error fault
      | .ok g => (x.finish missing byName right).map g := rfl

theorem putAll_seq_left (known : ∀ field ∈ fields, field.1 ∈ f.names) (left : f.Slots)
    (right : x.Slots) :
    (f <*> x).putAll fields (left, right) = (f.putAll fields left).map fun s => (s, right) := by
  induction fields generalizing left with
  | nil => rfl
  | cons field rest ih =>
    rw [List.forall_mem_cons] at known
    obtain ⟨hknown, hrest⟩ := known
    unfold putAll at ih ⊢
    rw [List.foldlM_cons, List.foldlM_cons, put_seq, if_pos (List.contains_iff_mem.2 hknown)]
    cases hput : f.put .json field.1 field.2.toDoc left with
    | error fault => rfl
    | ok filled => exact ih hrest filled

theorem putAll_seq_right (apart : ∀ field ∈ fields, field.1 ∉ f.names) (left : f.Slots)
    (right : x.Slots) :
    (f <*> x).putAll fields (left, right) = (x.putAll fields right).map fun s => (left, s) := by
  induction fields generalizing right with
  | nil => rfl
  | cons field rest ih =>
    rw [List.forall_mem_cons] at apart
    obtain ⟨happart, hrest⟩ := apart
    unfold putAll at ih ⊢
    rw [List.foldlM_cons, List.foldlM_cons, put_seq, if_neg (by simpa using happart)]
    cases hput : x.put .json field.1 field.2.toDoc right with
    | error fault => rfl
    | ok filled => exact ih hrest filled

namespace Reads

theorem pure (a : α) : (pure a : Record α).Reads [] a where
  known := by simp
  fills := ⟨(), rfl, fun _ => rfl⟩

/-- A field that is there. -/
theorem field {v : Json} {missing : (byName : Bool) → Option α} (h : decode .json v.toDoc = .ok a) :
    (Record.field name decode missing).Reads [(name, v)] a where
  known := by simp [Record.field]
  fills := by
    refine ⟨some a, ?_, fun _ => rfl⟩
    change (decode .json v.toDoc).map some >>= Pure.pure = _
    rw [h]
    rfl

/-- A field that is left out. -/
theorem absent {missing : (byName : Bool) → Option α} (h : missing true = some a) :
    (Record.field name decode missing).Reads [] a where
  known := by simp
  fills := by
    refine ⟨none, rfl, fun _ => ?_⟩
    simp [Record.field, h]

theorem required (name : String) {v : Json} (h : decode .json v.toDoc = .ok a) :
    (Record.required name decode).Reads [(name, v)] a :=
  field h

theorem spelled (name : String) {value : String} (h : decode .json (.text value) = .ok a) :
    (Record.required name decode).Reads [(name, .text value)] a :=
  field h

theorem text (name value : String) :
    (Record.required name Decode.text).Reads [(name, .text value)] value :=
  spelled name rfl

theorem flag (name : String) (value : Bool) :
    (Record.required name Decode.boolean).Reads [(name, .bool value)] value :=
  required name rfl

theorem optText (name : String) (value : Option String) :
    (Record.nullable name Decode.text).Reads [(name, .optText value)] value := by
  refine field ?_
  cases value <;> rfl

/-- Two records without a common name read their fields apart from each other. -/
theorem seq (hf : f.Reads fields g) (hx : x.Reads others a)
    (apart : ∀ name ∈ x.names, name ∉ f.names) : (f <*> x).Reads (fields ++ others) (g a) where
  known := by
    rw [List.forall_mem_append]
    exact ⟨fun field hfield => List.mem_append_left _ (hf.known field hfield),
      fun field hfield => List.mem_append_right _ (hx.known field hfield)⟩
  fills := by
    obtain ⟨first, hfirst, hg⟩ := hf.fills
    obtain ⟨second, hsecond, ha⟩ := hx.fills
    refine ⟨(first, second), ?_, fun missing => ?_⟩
    · have hothers : ∀ field ∈ others, field.1 ∉ f.names :=
        fun field hfield => apart _ (hx.known field hfield)
      have hleft := putAll_seq_left (x := x) hf.known f.empty x.empty
      have hright := putAll_seq_right (x := x) hothers first x.empty
      rw [hfirst] at hleft
      rw [hsecond] at hright
      unfold putAll at hleft hright ⊢
      rw [List.foldlM_append]
      change List.foldlM _ (f.empty, x.empty) fields >>= _ = _
      rw [hleft]
      exact hright
    · rw [finish_seq, hg, ha]
      rfl

theorem map (g : α → β) (hx : x.Reads fields a) : (g <$> x).Reads fields (g a) :=
  (pure g).seq hx (by simp [Pure.pure])

end Reads

end Record
end EdmCommands
