import ShaderHeader.Generation
import ShaderHeader.Proofs.Path.FileName
import ShaderHeader.Proofs.Text.Utf8

/-!
# What a notice names

The line that tells of a generated header names the file at the end of its path, and shows the
whole path if there is none (`Report.notice_of_destination`).  A header whose path is derived
from a shader's name is always named.
-/

namespace ShaderHeader

/-- What follows the last slash of a text; all of it if there is no slash. -/
def afterSlash (text : String) : String :=
  String.ofList (text.toList.reverse.takeWhile (· ≠ '/')).reverse

theorem slash_notMem_afterSlash (text : String) : '/' ∉ (afterSlash text).toList := by
  intro member
  rw [afterSlash, String.toList_ofList, List.mem_reverse] at member
  have other := List.all_eq_true.mp List.all_takeWhile '/' member
  cases other

theorem exists_append_afterSlash (text : String) :
    ∃ front : String, text = front ++ afterSlash text ∧
      (front = "" ∨ front.toList.getLast? = some '/') := by
  have whole := List.takeWhile_append_dropWhile (p := (· ≠ '/')) (l := text.toList.reverse)
  refine ⟨String.ofList (text.toList.reverse.dropWhile (· ≠ '/')).reverse, ?_, ?_⟩
  · rw [afterSlash, ← String.ofList_append, ← List.reverse_append, whole, List.reverse_reverse,
      String.ofList_toList]
  · have stops := List.head?_dropWhile_not (· ≠ '/') text.toList.reverse
    rw [String.toList_ofList, List.getLast?_reverse]
    cases rest : text.toList.reverse.dropWhile (· ≠ '/') with
    | nil => exact .inl rfl
    | cons c _ =>
        simp only [rest, List.head?_cons, decide_eq_false_iff_not, Decidable.not_not] at stops
        exact .inr (congrArg some stops)

namespace Utf8

theorem slash_notMem_encode {text : String} (free : '/' ∉ text.toList) :
    Path.slash ∉ encode text := by
  intro member
  obtain ⟨c, inside, byte⟩ := List.mem_flatMap.mp member
  have code : c.val.toNat = 47 := eq_of_mem_utf8EncodeChar (by decide) byte
  have same : c = '/' := Char.val_inj.mp (UInt32.toNat_inj.mp code)
  exact free (same ▸ inside)

theorem leading_encode {front : String} (ended : front = "" ∨ front.toList.getLast? = some '/') :
    Path.Leading (encode front) := by
  rcases ended with rfl | ended
  · exact .inl rfl
  · obtain ⟨start, spelled⟩ := List.getLast?_eq_some_iff.mp ended
    right
    rw [encode, spelled, List.flatMap_append, List.flatMap_singleton]
    exact List.getLast?_concat

end Utf8

namespace Embedding

/-- The header of a shader is a file named like the last part of the shader's name. -/
theorem names_destination (shader : String) :
    (ofShader shader).destination.Names (Utf8.encode (afterSlash shader ++ ".hpp")) := by
  obtain ⟨front, spelled, ended⟩ := exists_append_afterSlash shader
  have ends : (Path.ofString (shader ++ ".hpp")).LastPart
      (Utf8.encode (afterSlash shader ++ ".hpp")) := by
    refine ⟨Utf8.encode front, [], ?_, Utf8.leading_encode ended, .nil⟩
    rw [List.append_nil, ← Utf8.encode_append, ← String.append_assoc, ← spelled]
    rfl
  have long : 4 ≤ (Utf8.encode (afterSlash shader ++ ".hpp")).length := by
    rw [Utf8.encode_append, List.length_append]
    exact Nat.le_add_left 4 _
  have whole : Path.slash ∉ Utf8.encode (afterSlash shader ++ ".hpp") := by
    apply Utf8.slash_notMem_encode
    rw [String.toList_append, List.mem_append, not_or]
    exact ⟨slash_notMem_afterSlash shader, by decide⟩
  -- the ending makes the name longer than the parts with a meaning of their own
  refine ⟨ends.join includeFolder, ?_, whole, ?_, ?_⟩ <;> intro same <;> rw [same] at long <;>
    revert long <;> decide

end Embedding

namespace Report

theorem notice_of_names {report : Report} {name : Name} (named : report.destination.Names name) :
    report.notice = "Generated " ++ Utf8.decodeLossy name := by
  rw [notice, Path.fileName?_eq_some_iff.mpr named]

/-- **A notice names the generated file.** If the path of the header is a folder, a name and bytes
that change nothing, the notice shows the name, whatever the others are.  It shows all of any
other path; these go nowhere or to the directory above.  For a header whose path is derived from
a shader's name, it shows what follows the last slash of that name. -/
theorem notice_of_destination (report : Report) (words : Words) (shader : String) :
    (∀ name, report.destination.Names name →
        report.notice = "Generated " ++ Utf8.decodeLossy name) ∧
      ((∀ name, ¬ report.destination.Names name) →
        report.notice = "Generated " ++ Utf8.decodeLossy report.destination.bytes) ∧
      ((∀ name, ¬ report.destination.Names name) ↔
        report.destination.Idle ∨ report.destination.LastPart Path.dotDot) ∧
      ((Embedding.ofShader shader).report words).notice =
        "Generated " ++ afterSlash shader ++ ".hpp" := by
  refine ⟨fun _ => notice_of_names, ?_, ?_, ?_⟩
  · intro nameless
    rw [notice, Path.fileName?_eq_none_iff_nameless.mpr nameless]
    rfl
  · rw [← Path.fileName?_eq_none_iff_nameless, Path.fileName?_eq_none_iff]
  · have named := Embedding.names_destination shader
    have shown : ((Embedding.ofShader shader).report words).notice =
        "Generated " ++ Utf8.decodeLossy (Utf8.encode (afterSlash shader ++ ".hpp")) :=
      notice_of_names named
    rw [shown, Utf8.decodeLossy_encode, String.append_assoc]

/-- A header with a name, in a folder and before bytes that change nothing, and a path that goes
to the directory above. -/
theorem notice_of_destination_above :
    let named : Report := { Embedding.usual.report ⟨[], 0⟩ with
      destination := .ofString "out/./a.hpp//." }
    let above : Report := { named with destination := .ofString "out/../" }
    named.destination.Names (Utf8.encode "a.hpp") ∧ named.notice = "Generated a.hpp" ∧
      (∀ name, ¬ above.destination.Names name) ∧ above.notice = "Generated out/../" := by
  intro named above
  have names : named.destination.Names (Utf8.encode "a.hpp") :=
    Path.fileName?_eq_some_iff.mp (by decide)
  have nameless : ∀ name, ¬ above.destination.Names name :=
    Path.fileName?_eq_none_iff_nameless.mp (by decide)
  obtain ⟨shown, -⟩ := notice_of_destination named ⟨[], 0⟩ "a"
  obtain ⟨-, whole, -⟩ := notice_of_destination above ⟨[], 0⟩ "a"
  have bytes : above.destination.bytes = Utf8.encode "out/../" := rfl
  refine ⟨names, ?_, nameless, ?_⟩
  · rw [shown _ names, Utf8.decodeLossy_encode]
    rfl
  · rw [whole nameless, bytes, Utf8.decodeLossy_encode]
    rfl

end Report

end ShaderHeader
