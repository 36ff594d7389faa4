import EdmCommands.Proofs.Command.Codec
import EdmCommands.Proofs.Emission

/-!
# EdmCommands.Proofs.RoundTrip

What is written of commands is read back as the same commands.

* `does_emitJson_iff`: what the JSON file of commands holds, and when it can be written.
* `decodeText_commandsJson`: the commands are read back from it, unless the type of a parameter
  nests collections deeper than any reader follows.
-/

namespace EdmCommands
namespace Emission

open Host (Memory join)

variable {memory after : Memory} {commands : List Command} {directory : String}
  {paths : List String}

theorem does_emitJson_iff : Does (emitJson commands directory) memory paths after ↔
    paths = [join directory "commands.json"] ∧ ∃ made written,
      memory.disk.createDirectories directory = .ok made ∧
      made.writeFile (join directory "commands.json") (commandsJson commands) = .ok written ∧
      after = onDisk memory written := by
  unfold emitJson
  rw [does_bind_iff]
  constructor
  · rintro ⟨_, _, hcreate, hrest⟩
    obtain ⟨made, hmade, rfl⟩ := does_createDirectory_iff.1 hcreate
    obtain ⟨path, _, hwrite, hpath⟩ := does_bind_iff.1 hrest
    obtain ⟨rfl, written, hwritten, rfl⟩ := does_writeIn_iff.1 hwrite
    obtain ⟨rfl, rfl⟩ := does_pure_iff.1 hpath
    exact ⟨rfl, made, written, hmade, hwritten, rfl⟩
  · rintro ⟨rfl, made, written, hmade, hwritten, rfl⟩
    refine ⟨(), onDisk memory made, does_createDirectory_iff.2 ⟨made, hmade, rfl⟩, ?_⟩
    refine does_bind_iff.2 ⟨_, _, does_writeIn_iff.2 ⟨rfl, written, hwritten, rfl⟩, ?_⟩
    exact does_pure_iff.2 ⟨rfl, rfl⟩

theorem readFile_of_emitJson (h : Does (emitJson commands directory) memory paths after) :
    after.disk.readFile (join directory "commands.json") = .ok (commandsJson commands) := by
  obtain ⟨-, _, written, -, hwritten, rfl⟩ := does_emitJson_iff.1 h
  exact Disk.readFile_of_writeFile hwritten

/-- The commands are read back from their text, and this text is what the file holds. A reader
follows 127 levels, and seven of them are around a type. -/
theorem decodeText_commandsJson
    (h : ∀ c ∈ commands, ∀ p ∈ c.parameters, p.type.nesting ≤ 100) :
    Json.decodeText (Decode.list Command.decode) (commandsJson commands) = .ok commands ∧
      ∀ directory memory paths after, Does (emitJson commands directory) memory paths after →
        after.disk.readFile (join directory "commands.json") = .ok (commandsJson commands) := by
  have numberless : (Json.arr (commands.map Command.toJson)).isNumberless = true :=
    Json.allNumberless_map fun c _ => c.isNumberless_toJson
  have shallow : (Json.arr (commands.map Command.toJson)).toDoc.depth ≤ 107 := by
    rw [Json.toDoc, Doc.depth]
    exact Nat.succ_le_succ (Json.depthOfItems_map fun c hc => Command.depth_toJson (h c hc))
  have decoded : Decode.list Command.decode .json
      (Json.arr (commands.map Command.toJson)).toDoc = .ok commands :=
    Decode.list_arr fun c _ => c.decode_toJson
  refine ⟨?_, fun _ _ _ _ hwritten => readFile_of_emitJson hwritten⟩
  exact Json.decodeText_pretty numberless (Nat.le_trans shallow (by decide)) decoded

/-- A command with texts that need escapes, a type in two collections, and a parameter that is
mandatory in one of two sets. -/
def escaped : Command where
  name := ⟨.invoke, "Tag"⟩
  operation := .action
  httpMethod := .post
  urlTemplate := "/users/\x7buser-id\x7d/tag"
  route := "/users/\x7buser-id\x7d/tag"
  sets := [{ name := "Tag", isDefault := true }, { name := "TagNested", derivedType := some "a.b" }]
  parameters :=
    [{ name := "user_id"
       wireName := some "user-id"
       type := .text
       location := .path
       mandatory := true
       validateNotNullOrEmpty := true },
     { name := "labels"
       type := .collection (.collection (.primitive .string))
       location := .body
       mandatoryIn := .ofList ["TagNested"]
       membership := .only (.ofList ["TagNested", "Tag"])
       description := some "quoted \"π😀\"\n\tbehind \\ and \x01" }]
  idParameter := some "user_id"
  summary := ""

theorem decodeText_commandsJson_escaped :
    (∀ c ∈ [escaped], ∀ p ∈ c.parameters, p.type.nesting ≤ 100) ∧
      (∃ after, Does (emitJson [escaped] "out") {} ["out/commands.json"] after ∧
        after.disk.readFile "out/commands.json" = .ok (commandsJson [escaped])) ∧
      Json.decodeText (Decode.list Command.decode) (commandsJson [escaped]) = .ok [escaped] := by
  have shallow : ∀ c ∈ [escaped], ∀ p ∈ c.parameters, p.type.nesting ≤ 100 := by
    decide
  obtain ⟨decoded, held⟩ := decodeText_commandsJson shallow
  have written : ∃ after, Does (emitJson [escaped] "out") {} ["out/commands.json"] after :=
    ⟨_, does_emitJson_iff.2 ⟨by decide, _, _, rfl, rfl, rfl⟩⟩
  obtain ⟨after, hafter⟩ := written
  exact ⟨shallow, ⟨after, hafter, held "out" _ _ _ hafter⟩, decoded⟩

end Emission
end EdmCommands
