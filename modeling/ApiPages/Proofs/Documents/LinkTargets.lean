import ApiPages.Proofs.Documents.Pages
import ApiPages.Proofs.Page.Resolution

/-!
# Links between documents

With links that are relative and end in `.md`, every link from a document to a page leads to a
document that is there and, in it, to the page.
-/

namespace ApiPages

variable {settings : Settings} {ds : List Declaration}

/-- **No link dangles.** Every page is in a document that is generated, and the link to it, read
where a document is, resolves to this document and to the page's anchor if it has one. The way of
the link is plain text of visible characters. -/
theorem links_lead_to_documents (hstart : settings.linkStart = "") (hend : settings.linkEnd = ".md")
    (hds : Declaration.checkStructure ds = .ok ()) (time : Option String) :
    ∃ docs, Documents.generate settings time ds = .ok docs ∧
      ∀ p ∈ (indexOf settings ds).pages, p.path ∈ docs.paths ∧
        ∀ source ∈ docs.paths,
          resolve? source ((indexOf settings ds).link p source) = some (p.path, p.anchor) ∧
          IsPlainDestination (wayOf ((indexOf settings ds).link p source)) := by
  obtain ⟨docs, hdocs, hpaths⟩ := Documents.generate_paths settings time hds
  refine ⟨docs, hdocs, fun p hp => ⟨(hpaths p.path).2 (.inr ⟨p, hp, rfl⟩), ?_⟩⟩
  intro source _
  exact PageIndex.resolve?_link (x := indexOf settings ds) hstart hend p.category
    (path_of_mem_pages hp) source

/-- The operator `/` is linked from the page of a type with a name beyond ASCII, and the type from
the operator's page. -/
theorem links_between_operator_and_type :
    ∃ docs, Documents.generate .standard none
        [.bare .function "/(lhs:rhs:)" [], .bare .structType "Größe" []] = .ok docs ∧
      "methods/%2F(lhs:rhs:).md" ∈ docs.paths ∧ "structs/Größe.md" ∈ docs.paths ∧
      resolve? "structs/Größe.md" "../methods/%252F%28lhs:rhs:%29.md" =
        some ("methods/%2F(lhs:rhs:).md", none) ∧
      resolve? "methods/%2F(lhs:rhs:).md" "../structs/Gr%C3%B6%C3%9Fe.md" =
        some ("structs/Größe.md", none) := by
  obtain ⟨docs, hdocs, hlinks⟩ := @links_lead_to_documents .standard
    [.bare .function "/(lhs:rhs:)" [], .bare .structType "Größe" []] rfl rfl rfl none
  obtain ⟨hmethod, hfromAll⟩ := hlinks
    ⟨"/(lhs:rhs:)", .methods, "methods/%2F(lhs:rhs:).md", none⟩ (by decide +kernel)
  obtain ⟨hstruct, htoAll⟩ := hlinks ⟨"Größe", .structs, "structs/Größe.md", none⟩
    (by decide +kernel)
  exact ⟨docs, hdocs, hmethod, hstruct, (hfromAll _ hstruct).1, (htoAll _ hmethod).1⟩

end ApiPages
