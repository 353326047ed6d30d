import DoorAccess.Proofs.Registry.DocumentFormat
import DoorAccess.Proofs.Store.Write
import DoorAccess.Proofs.Text.Utf8

/-!
What was written to the file is what is loaded from it.
-/
namespace DoorAccess.Store

theorem load_congr {s : Store} {d d' : Disk} (same : s.place.read d' = s.place.read d) :
    s.load d' = s.load d := by
  simp only [load, same]

theorem decode?_content (doc : Document) :
    Text.Utf8.decode? (content doc ++ [10]) = some (doc.render ++ "\n").toList := by
  have bytes : content doc ++ [10] = Text.Utf8.encode (doc.render ++ "\n").toList := by
    rw [String.toList_append, Text.Utf8.encode, List.flatMap_append]
    rfl
  rw [bytes, Text.Utf8.decode?_encode]

theorem isAllBlank_render (doc : Document) : Text.isAllBlank (doc.render ++ "\n") = false := by
  obtain ⟨cs, text⟩ : ∃ cs, doc.render.toList = '\x7b' :: cs :=
    ⟨_, by rw [Document.render, String.toList_ofList]; rfl⟩
  have brace : Text.isBlank '\x7b' = false := by decide
  simp [Text.isAllBlank, text, brace]

/-- A file that holds a rendered document and a line end is loaded as this document. -/
theorem load_of_content {s : Store} {d : Disk} {doc : Document}
    (h : s.place.read d = .ok (content doc ++ [10])) : s.load d = (doc, .loaded) := by
  simp only [load, h, decode?_content, String.ofList_toList, isAllBlank_render, Bool.false_eq_true,
    if_false, Document.Lenient.parse_render]

/-- Whatever names, credentials, levels and repetitions a document holds, both readings of the text
that is written for it give exactly this document, and this text is what the file holds. -/
theorem written_document_reads_back (doc : Document) :
    let text := doc.render ++ "\n"
    Document.Lenient.parse text = .ok (doc, 0) ∧ Document.Strict.parse? text = some doc ∧
      ∀ (s : Store) (number : UInt32) (d d' : Disk) (faults : Disk.Faults),
        s.writeAtomic doc number d faults = (.ok (), d') →
          ∃ bytes, s.place.read d' = .ok bytes ∧ Text.Utf8.decode? bytes = some text.toList := by
  refine ⟨Document.Lenient.parse_render doc, Document.Strict.parse?_render doc, ?_⟩
  intro s number d d' faults written
  exact ⟨_, (writeAtomic_ok written).content, decode?_content doc⟩

end DoorAccess.Store
