import ModelRegistry.Proofs.Records
import ModelRegistry.Registry.Format

/-!
# Two ways of reading a registry

A registry is read straight from a text, or from the value that the text has been read as. All
records of a registry have fields whose changes do not touch each other, so both ways agree: the
order of members, members that nobody asks for and records written as arrays make no difference.
-/

namespace ModelRegistry

open Json

namespace Property

theorem coherent_format : format.Coherent where
  fields := by
    simp only [format, List.forall_mem_cons, Field.needed, Field.optional]
    exact ⟨Decoder.coherent_string.map _, Decoder.coherent_bool.map _,
      Decoder.coherent_value.map _, List.forall_mem_nil _⟩
  commute := by
    simp [format, Field.needed, Field.optional, Field.commute_of_setters]

end Property

namespace Discriminator

theorem coherent_format : format.Coherent where
  fields := by
    simp only [format, List.forall_mem_cons, Field.needed]
    exact ⟨Decoder.coherent_string.map _, List.forall_mem_nil _⟩
  commute := List.pairwise_singleton _ _

end Discriminator

namespace Model

theorem coherent_format : format.Coherent where
  fields := by
    simp only [format, List.forall_mem_cons, Field.needed, Field.optional]
    refine ⟨Decoder.coherent_string.map _, ?_, ?_, ?_, ?_, ?_, List.forall_mem_nil _⟩
    · exact Property.coherent_format.decoder.list.map _
    · exact (Decoder.coherent_string.list.map _).map _
    · exact Decoder.coherent_string.list.map _
    · exact Decoder.coherent_string.option.map _
    · exact Discriminator.coherent_format.decoder.option.map _
  commute := by
    simp [format, Field.needed, Field.optional, Field.commute_of_setters]

end Model

namespace GenerationUnit

theorem coherent_format : format.Coherent where
  fields := by
    simp only [format, List.forall_mem_cons, Field.optional]
    exact ⟨Model.coherent_format.decoder.list.map _, List.forall_mem_nil _⟩
  commute := List.pairwise_singleton _ _

end GenerationUnit

namespace Registry

theorem coherent_decoder : decoder.Coherent :=
  GenerationUnit.coherent_format.decoder.nameMap.map _

/-- A text without repeated keys is read as a registry if and only if its value is, and as the same
one. With repeated keys the value may still be accepted where the text is not, but what is read of
the text is what is read of the value. -/
theorem ofSource_agrees_with_ofValue {s : Source} {v : Value}
    (h : Decoder.value.ofSource s = .ok v) :
    ((Document.ofSource s).document.HasDistinctKeys →
      ∀ r, decoder.ofSource s = .ok r ↔ ofValue v = .ok r) ∧
      ∀ r, decoder.ofSource s = .ok r → ofValue v = .ok r := by
  have htext (r : Registry) (hr : decoder.ofSource s = .ok r) : ofValue v = .ok r :=
    coherent_decoder.ofValue_of_ofSource h hr
  refine ⟨fun hdistinct r => ⟨htext r, fun hr => ?_⟩, htext⟩
  exact coherent_decoder.ofSource_of_ofValue h hdistinct hr

deriving instance DecidableEq for Token

/-- Records as arrays, members out of order and unknown, and imports that are repeated. -/
def terseText : String :=
  "\x7b\"pets\": [[[\"Cat\", [[\"name\", true]], " ++
    "[\"Dog\", \"Ant\", \"Dog\"], [\"Dog\", \"Ant\"]], " ++
    "\x7b\"note\": [\x7b\x7d], \"parent\": null, \"name\": \"Dog\"\x7d]], \"none\": \x7b\x7d\x7d"

def terseTree : Json :=
  .object [("none", .object []), ("pets", .array [.array [
    .array [.string "Cat", .array [.array [.string "name", .bool true]],
      .array [.string "Dog", .string "Ant", .string "Dog"], .array [.string "Dog", .string "Ant"]],
    .object [("name", .string "Dog"), ("note", .array [.object []]), ("parent", .null)]]])]

def terseRegistry : Registry :=
  ⟨.ofList [("none", {}), ("pets", ⟨[
    { name := "Cat", properties := [{ name := "name", required := true }],
      imports := .ofList ["Ant", "Dog"], composedBases := ["Dog", "Ant"] },
    { name := "Dog" }]⟩)]⟩

def terseTokens : List Token :=
  let text (s : String) : Token := .string (.ok s)
  [.openObject, text "pets", .colon, .openList, .openList,
    .openList, text "Cat", .comma,
      .openList, .openList, text "name", .comma, .bool true, .closeList, .closeList, .comma,
      .openList, text "Dog", .comma, text "Ant", .comma, text "Dog", .closeList, .comma,
      .openList, text "Dog", .comma, text "Ant", .closeList, .closeList, .comma,
    .openObject, text "note", .colon, .openList, .openObject, .closeObject, .closeList, .comma,
      text "parent", .colon, .null, .comma, text "name", .colon, text "Dog", .closeObject,
    .closeList, .closeList, .comma, text "none", .colon, .openObject, .closeObject, .closeObject]

def terseDocument : Document :=
  let text (s : String) : Document := .string (.ok s)
  let texts (ss : List String) : Document := .list (ss.map text) .closed
  .object [(.ok "pets", .list [.list [
      .list [text "Cat", .list [.list [text "name", .bool true] .closed] .closed,
        texts ["Dog", "Ant", "Dog"], texts ["Dog", "Ant"]] .closed,
      .object [(.ok "note", .list [.object [] .closed] .closed), (.ok "parent", .null),
        (.ok "name", text "Dog")] .closed] .closed] .closed),
    (.ok "none", .object [] .closed)] .closed

theorem reading_terseText : Document.ofSource (.ofText terseText) = ⟨terseDocument, false⟩ := by
  have htokens : Token.ofSource (.ofText terseText) = terseTokens := by decide +kernel
  rw [Document.ofSource, htokens]
  rfl

theorem ofSource_terseText : decoder.ofSource (.ofText terseText) = .ok terseRegistry := by
  rw [Decoder.ofSource, reading_terseText]
  rfl

theorem terseText_agrees_with_value :
    Decoder.value.ofSource (.ofText terseText) = .ok terseTree.toValue ∧
      (Document.ofSource (.ofText terseText)).document.HasDistinctKeys ∧
      decoder.ofSource (.ofText terseText) = .ok terseRegistry ∧
      ofValue terseTree.toValue = .ok terseRegistry := by
  have hv : Decoder.value.ofSource (.ofText terseText) = .ok terseTree.toValue := by
    rw [Decoder.ofSource, reading_terseText]
    rfl
  have hdistinct : (Document.ofSource (.ofText terseText)).document.HasDistinctKeys := by
    rw [reading_terseText]
    decide
  obtain ⟨hagree, -⟩ := ofSource_agrees_with_ofValue hv
  have hr := (hagree hdistinct terseRegistry).mp ofSource_terseText
  exact ⟨hv, hdistinct, ofSource_terseText, hr⟩

end Registry

end ModelRegistry
