import Infill.Proofs.Files.Write
import Infill.Proofs.Json.Readable
import Infill.Proofs.Json.RoundTrip

/-!
# Values kept in files

A value written as a document is there when the document is read as data, through whatever links its path
may lead; only null comes back as an object without members.  Every other entry of the tree stays as it was.
-/

set_option autoImplicit false

namespace Infill.Files

/-- What is written as a document is read back from the tree that it was written to, and it is in the one
file that has been written.  It has to be a value that a document can hold: ordered, with whole numbers of
64 bits, and nested no deeper than values are read. -/
theorem readJson_of_writeJson {t u : FileTree} {path : Path} {v : Json} (hordered : v.Ordered)
    (hbounded : v.Bounded Json.maxDepth) (h : (writeJson t path v).result = .ok u) :
    ((documents u).readJson path).result = .ok v.orEmpty ∧
      ∃ location, t.Written path (Utf8.encode (Json.pretty v)) location u := by
  rw [writeJson, result_write] at h
  have hwrite : t.writeFile path (Utf8.encode (Json.pretty v)) = .ok u := Result.mapError_eq_ok.1 h
  obtain ⟨location, hwritten⟩ := FileTree.exists_written_of_writeFile hwrite
  refine ⟨?_, location, hwritten⟩
  have hread : (documents u).read path = .ok (Utf8.encode (Json.pretty v)) := by
    show atPath path (u.readFile path) = _
    rw [hwritten.readFile]
    rfl
  rw [Documents.result_readJson, hread]
  exact congrArg Except.ok (Documents.held_of_read (Json.read_pretty hbounded hordered))

/-- A value with the least and the greatest number, escapes and empty values, written through a link that
leads nowhere yet. -/
theorem readJson_of_writeJson_through_link :
    let v : Json := .object [(['"', '\n', 'é'], .array [.number (.integer (-9223372036854775808)),
      .number (.integer (18446744073709551615)), .null, .array [], .object []])]
    let t : FileTree := ⟨[([['l']], .link ['d'])], []⟩
    ∃ u, (writeJson t ['l'] v).result = .ok u ∧ ((documents u).readJson ['l']).result = .ok v ∧
      t.Written ['l'] (Utf8.encode (Json.pretty v)) [['d']] u := by
  intro v t
  let u : FileTree := t.put [['d']] (.file (Utf8.encode (Json.pretty v)))
  have hordered : v.Ordered := by
    refine Json.ordered_singleton _ (.array ?_)
    simp only [List.mem_cons, List.not_mem_nil, or_false, forall_eq_or_imp, forall_eq]
    exact ⟨.number _, .number _, .null, .array (by simp), Json.ordered_empty⟩
  have hbounded : v.Bounded Json.maxDepth := by
    refine .object fun member hmember => ?_
    obtain rfl := List.mem_singleton.1 hmember
    refine .array ?_
    simp only [List.mem_cons, List.not_mem_nil, or_false, forall_eq_or_imp, forall_eq]
    have hleast : (Number.integer (-9223372036854775808)).InRange := ⟨by decide, by decide⟩
    have hgreatest : (Number.integer (18446744073709551615)).InRange := ⟨by decide, by decide⟩
    exact ⟨.number _ hleast, .number _ hgreatest, .null _, .array (by simp), .object (by simp)⟩
  have hwrite : (writeJson t ['l'] v).result = .ok u := by rfl
  obtain ⟨hread, location, hwritten⟩ := readJson_of_writeJson hordered hbounded hwrite
  have hfind : u.find ['l'] = .ok [['d']] := by rfl
  obtain rfl : location = [['d']] := Except.ok.inj (hwritten.found.symm.trans hfind)
  exact ⟨u, hwrite, hread, hwritten⟩

end Infill.Files
