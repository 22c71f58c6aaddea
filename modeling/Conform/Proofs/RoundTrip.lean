import Conform.Proofs.Grammar

/-!
# Trees and their texts

What is written for a module is read back as that module (`Module.read?_render`), and a value is
read as a module exactly if it spells it (`Module.reads_spellings`). So the text that is written for
what was read is a canonical one: writing it out once more changes nothing.

The bound on levels is one of what is written, not of what was read. A value may be deeper than the
reader goes, as long as that is under a key which the reader skips.
-/

namespace Conform.Module

/-- The reader gets back the very form that was written. -/
theorem read?_render_eq (m : Module) : read? m.render = ofJson? maxLevels m.toJson := by
  rw [read?, render, Json.read?_compact m.writes.isWhole, Option.bind_some]

theorem ofJson?_toJson {n : Nat} {m : Module} (hdepth : m.toJson.depth ≤ n) :
    ofJson? n m.toJson = some m :=
  (m.exact n).read m.writes.spelled hdepth

/-- A module whose form has no more levels than the reader goes is read from its text. -/
theorem read?_render {m : Module} (hdepth : m.toJson.depth ≤ maxLevels) :
    read? m.render = some m := by
  rw [read?_render_eq, ofJson?_toJson hdepth]

/-- A module with every form of item, statement, annotation and expression. Its names need escapes
or more than one byte, and its spans reach the bounds of the word, one of them reversed. -/
def everyForm : Module :=
  let whole : Span := ⟨0, 0xFFFFFFFFFFFFFFFF⟩
  let reversed : Span := ⟨0xFFFFFFFFFFFFFFFF, 0⟩
  let odd : Ident := ⟨"\"\\\u0000\n\u007f\u2028", reversed⟩
  let far : Ident := ⟨"λ😀", whole⟩
  ⟨[.record ⟨odd, [far, odd], false,
      [⟨far, .callable [.named far, .callable [] (.named odd) whole] (.named odd) reversed,
        some false, whole⟩, ⟨odd, .named far, none, reversed⟩], whole⟩,
    .function ⟨far, [⟨odd, .named far, whole⟩], .named odd,
      [.ret none reversed, .ret (some (.call far [.name odd, .scalar .none whole] whole)) whole],
      reversed⟩,
    .stmt (.assign ⟨odd, none, .dict [⟨"", .dict [] whole, reversed⟩,
      ⟨"\t", .scalar .bytes reversed, whole⟩] whole, reversed⟩),
    .stmt (.assign ⟨far, some (.named far), .scalar .bool whole, whole⟩),
    .stmt (.expr (.name odd))]⟩

theorem read?_render_everyForm :
    everyForm.toJson.depth ≤ maxLevels ∧ read? everyForm.render = some everyForm := by
  have hdepth : everyForm.toJson.depth ≤ maxLevels := by decide +kernel
  exact ⟨hdepth, read?_render hdepth⟩

/-- A value that is not too deep is read as a module exactly if it spells that module, as what is
written for the module does. What is written for a module that was read is read as it again, so the
text written for a text is its own. -/
theorem reads_spellings :
    (∀ (m : Module) (value : Json), value.depth ≤ maxLevels →
      (ofJson? maxLevels value = some m ↔ m.SpelledAs value)) ∧
    (∀ m : Module, m.SpelledAs m.toJson) ∧
    (∀ text m, read? text = some m → read? m.render = some m) ∧
    ∀ text, ((read? text).map render).bind (fun text => (read? text).map render) =
      (read? text).map render := by
  have hrender : ∀ text m, read? text = some m → read? m.render = some m := by
    intro text m h
    obtain ⟨value, _, h⟩ := Option.bind_eq_some_iff.mp h
    rw [read?_render_eq, ofJson?_toJson ((m.exact maxLevels).depth_le h)]
  refine ⟨fun m value hdepth => ?_, fun m => m.writes.spelled, hrender, fun text => ?_⟩
  · exact ⟨(m.exact maxLevels).spelled, fun h => (m.exact maxLevels).read h hdepth⟩
  · cases h : read? text with
    | none => rfl
    | some m => rw [Option.map_some, Option.bind_some, hrender text m h, Option.map_some]

/-- A record with a field, and an assignment. -/
def recordAndValue : Module :=
  let here : Span := ⟨0, 1⟩
  ⟨[.record ⟨⟨"A", here⟩, [], true,
      [⟨⟨"f", here⟩, .callable [] (.named ⟨"int", here⟩) here, none, here⟩], here⟩,
    .stmt (.assign ⟨⟨"x", here⟩, none, .scalar .none here, here⟩)]⟩

/-- The same in another spelling: the record has its members in another order, among others that
repeat, and without its bases and its mark; the rest consists of arrays. -/
def recordAndValueSpelling : Json :=
  let here : Json := .arr [.nat 0, .nat 1]
  let int : Json := .obj [("Named", .obj [("span", here), ("name", .str "int")])]
  .obj [("note", .numeral "-0.5"), ("items", .arr [
    .obj [("Record", .obj [("span", here), ("note", .unpaired),
      ("fields", .arr [.arr [.arr [.str "f", here],
        .obj [("Callable", .arr [.arr [], int, here])], .null, here]]),
      ("note", .arr [.null]), ("name", .arr [.str "A", here])])],
    .obj [("Stmt", .obj [("Assign", .arr [.arr [.str "x", here], .null,
      .obj [("Scalar", .arr [.obj [("none", .null)], here])], here])])]])]

theorem reads_spellings_recordAndValue :
    recordAndValueSpelling.depth ≤ maxLevels ∧
      ofJson? maxLevels recordAndValueSpelling = some recordAndValue ∧
      recordAndValue.SpelledAs recordAndValueSpelling ∧
      read? recordAndValue.render = some recordAndValue := by
  have hdepth : recordAndValueSpelling.depth ≤ maxLevels := by decide +kernel
  have hread : ofJson? maxLevels recordAndValueSpelling = some recordAndValue := by rfl
  obtain ⟨hiff, hwritten, _, _⟩ := reads_spellings
  have hform : ofJson? maxLevels recordAndValue.toJson = some recordAndValue :=
    (hiff _ _ (by decide +kernel)).mpr (hwritten _)
  exact ⟨hdepth, hread, (hiff _ _ hdepth).mp hread, by rw [read?_render_eq, hform]⟩

end Conform.Module
