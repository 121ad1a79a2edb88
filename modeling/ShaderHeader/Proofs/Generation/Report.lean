import ShaderHeader.Proofs.Generation.Turn
import ShaderHeader.Proofs.Header.Definitions

/-!
# Reports and headers

A report is made from the words of a module, and is checked here against the text of the header
that is saved: the literals found in it are as many as the report says, and of its lines only two
define something: the array, and the constant for its size.
-/

namespace ShaderHeader

namespace Embedding

/-- **The report agrees with the header.**  A header that was saved holds as many literals as the
report counts words, and the report gives their size in bytes; the bytes of the module that are
missing from it were dropped, and do not make a word.  The header defines the array and one
constant, for the size of this array.  All numbers depend on the length of the module alone. -/
theorem report_of_generate {embedding : Embedding} {site : Site} {disk : Disk} {report : Report}
    (succeeded : (embedding.generate site disk).result = .ok report) :
    ∃ bytes header place mode,
      disk.read site.directory embedding.source = .ok bytes ∧
      disk.entryPlace? site.directory embedding.destination = some place ∧
      (embedding.generate site disk).disk.get? place = some (.file mode (Utf8.encode header)) ∧
      ((Header.literalsOf header).length = report.wordCount ∧
        ∀ literal ∈ Header.literalsOf header, ∃ word,
          Header.IsLiteral (String.ofList literal) word) ∧
      (report.byteSize = 4 * (Header.literalsOf header).length ∧
        report.byteSize + report.dropped = bytes.length ∧ report.dropped < 4) ∧
      Header.definitions header =
        [("alignas(4) static const uint32_t " ++ embedding.arrayName ++ "[] = \x7b").toList,
          ("static const size_t " ++ (embedding.arrayName ++ "_SIZE") ++ " = sizeof(" ++
            embedding.arrayName ++ ");").toList] ∧
      report.wordCount = bytes.length / 4 ∧ report.byteSize = 4 * (bytes.length / 4) ∧
        report.dropped = bytes.length % 4 := by
  obtain ⟨bytes, after, valid, readable, saved⟩ := saved_of_generate succeeded
  obtain ⟨place, mode, named, -, rfl⟩ := Disk.saveAtOnce_spec saved
  rw [generate_of_saved valid readable saved] at succeeded ⊢
  cases succeeded
  have literals : Header.literalsOf (Header.ofModule bytes embedding) =
      (Words.ofBytes bytes).list.map fun word => (Header.literal word).toList :=
    Header.literalsOf_text valid
  have count : (Header.literalsOf (Header.ofModule bytes embedding)).length =
      (Words.ofBytes bytes).size := by
    rw [literals, List.length_map, Words.size]
  obtain ⟨sum, few⟩ := Words.byteSize_add_dropped bytes
  refine ⟨bytes, Header.ofModule bytes embedding, place, mode, readable, named,
    Disk.get?_insert_self .., ⟨count, ?_⟩, ⟨?_, sum, few⟩, Header.definitions_text valid,
    Words.size_ofBytes bytes, ?_, Words.dropped_ofBytes bytes⟩
  · intro spelled member
    rw [literals] at member
    obtain ⟨word, -, rfl⟩ := List.mem_map.mp member
    rw [String.ofList_toList]
    exact ⟨word, Header.isLiteral_literal word⟩
  · rw [count]
    rfl
  · rw [← Words.size_ofBytes]
    rfl

/-- A module of six bytes has one word, and two bytes that are dropped. -/
theorem report_of_generate_six :
    let disk : Disk :=
      { entries := [([], .directory 0o755), ([[0x73]], .file 0o600 [3, 2, 35, 7, 1, 2])] }
    (small.generate smallSite disk).result = .ok ⟨⟨[0x73]⟩, ⟨[0x64]⟩, 1, 4, 2⟩ ∧
      ∃ header place mode,
        (small.generate smallSite disk).disk.get? place = some (.file mode (Utf8.encode header)) ∧
        (Header.literalsOf header).length = 1 := by
  intro disk
  have succeeded : (small.generate smallSite disk).result =
      .ok ⟨⟨[0x73]⟩, ⟨[0x64]⟩, 1, 4, 2⟩ := rfl
  obtain ⟨_, header, place, mode, -, -, saved, ⟨count, -⟩, -⟩ := report_of_generate succeeded
  exact ⟨succeeded, header, place, mode, saved, count⟩

end Embedding

end ShaderHeader
