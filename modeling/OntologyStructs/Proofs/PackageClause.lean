import OntologyStructs.Proofs.Lines
import OntologyStructs.Proofs.Naming
import OntologyStructs.Proofs.Settings.Loading
import OntologyStructs.Struct.GoFile

namespace OntologyStructs

theorem Text.withoutFinalLineFeed_or (t : Text) :
    t = t.withoutFinalLineFeed ∨ t = (t.withoutFinalLineFeed ++ "\n" : Text) := by
  rw [withoutFinalLineFeed]
  split
  · next h => exact .inr (List.dropLast_append_getLast? _ h).symm
  · exact .inl rfl

namespace GoFile

/-- A lower-case letter or an underscore, and then such and digits. -/
def IsPackageWord (t : Text) : Prop :=
  ∃ c r, t = c :: r ∧ (c.isLower ∨ c = '_') ∧ ∀ d ∈ r, d.isLower ∨ d.isDigit ∨ d = '_'

variable {name : Text} {ss : List Struct}

theorem IsPackageWord.forall_mem (h : IsPackageWord name) :
    ∀ c ∈ name, c.isLower ∨ c.isDigit ∨ c = '_' := by
  obtain ⟨c, r, rfl, hc, hr⟩ := h
  exact List.forall_mem_cons.mpr ⟨hc.imp_right .inr, hr⟩

theorem IsPackageWord.isLine (h : IsPackageWord name) : name.IsLine := by
  intro hfeed
  exact absurd (h.forall_mem _ hfeed) (by decide)

theorem IsPackageWord.ne_nil (h : IsPackageWord name) : name ≠ [] := by
  obtain ⟨c, r, rfl, -⟩ := h
  exact List.cons_ne_nil c r

theorem IsPackageWord.not_isDigit_head (h : IsPackageWord name) :
    ∀ c ∈ name.head?, c.isDigit = false := by
  obtain ⟨c, r, rfl, hc, -⟩ := h
  rintro _ ⟨⟩
  rcases hc with hc | rfl
  · have hlow := (CodePoint.isLower_iff.mp hc).1
    have hdigit : ¬ c.val ≤ 57 := by omega
    exact Bool.and_eq_false_imp.mpr fun _ ↦ decide_eq_false hdigit
  · rfl

theorem isPackageWord_of_isPackageName {t : Text} (h : Settings.isPackageName t) :
    IsPackageWord t.withoutFinalLineFeed := by
  rw [Settings.isPackageName] at h
  cases hword : t.withoutFinalLineFeed with
  | nil =>
    rw [hword] at h
    cases h
  | cons c r =>
    rw [hword] at h
    exact ⟨c, r, rfl, by simpa [or_assoc] using h⟩

def declarations (ss : List Struct) : Text :=
  (ss.flatMap structLines).flatMap fun line ↦ (line ++ "\n" : Text)

theorem head?_splitOn_declarations (h : ss ≠ []) :
    ((declarations ss).splitOn '\n').head? = some [] := by
  cases ss with
  | nil => exact absurd rfl h
  | cons s ss => rfl

theorem splitOn_render_append (h : name.IsLine) (r : Text) {package : Text}
    (hp : (package ++ "\n" : Text) = name ++ ('\n' : CodePoint) :: r) :
    (render package ss).splitOn '\n' =
      ("// Code generated by schemagen. DO NOT EDIT." : Text) :: [] :: ("package " ++ name : Text) ::
        (r ++ declarations ss).splitOn '\n' := by
  have hclause : ("package " ++ name : Text).IsLine := Text.isLine_append.mpr ⟨by decide, h⟩
  have hheader : Text.IsLine "// Code generated by schemagen. DO NOT EDIT." := by decide
  have hrender : render package ss =
      ("// Code generated by schemagen. DO NOT EDIT." : Text) ++ ('\n' : CodePoint) ::
        ([] ++ ('\n' : CodePoint) :: (("package " ++ name : Text) ++ ('\n' : CodePoint) ::
          (r ++ declarations ss))) := by
    have hline : ("package " ++ package ++ "\n" : Text) =
        ("package " ++ name : Text) ++ ('\n' : CodePoint) :: r := by
      rw [List.append_assoc, hp, List.append_assoc]
    rw [render, lines, List.flatMap_append, List.flatMap_cons, List.flatMap_cons, List.flatMap_cons,
      hline]
    simp only [List.flatMap_nil, List.append_nil, List.append_assoc]
    rfl
  rw [hrender, Text.splitOn_append hheader, Text.splitOn_append Text.isLine_nil,
    Text.splitOn_append hclause]

end GoFile

namespace Settings

theorem Stable.isPackageName {s : Settings} (hs : s.Stable) : isPackageName s.packageName := by
  have hread : readPackageName (.text s.packageName) = .ok s.packageName := hs .packageName
  exact (SettingKey.readPackageName_text hread).2

/-- Whatever settings come from, their package is named by a word, which the third line of every file
names. The name may go on after the word, but only with a line feed. -/
theorem package_clause {tree : FileTree} {source : Json} {updates : GivenSettings} {s s' : Settings}
    (hload : (load tree source).result = .ok s) (hoverride : s.override updates = .ok s') :
    ∃ name : Text, name ≠ [] ∧ (∀ c ∈ name, c.isLower ∨ c.isDigit ∨ c = '_') ∧
      (∀ c ∈ name.head?, c.isDigit = false) ∧
      ((s'.packageName = name ∧ ∀ ss,
          ((GoFile.render s'.packageName ss).splitOn '\n')[2]? =
            some ("package " ++ s'.packageName : Text) ∧
          (ss ≠ [] → ((GoFile.render s'.packageName ss).splitOn '\n')[3]? = some [])) ∨
        (s'.packageName = (name ++ "\n" : Text) ∧ ∀ ss,
          ((GoFile.render s'.packageName ss).splitOn '\n')[2]? = some ("package " ++ name : Text) ∧
          ((GoFile.render s'.packageName ss).splitOn '\n')[3]? = some [])) := by
  have hstable : s'.Stable := stable_of_override (stable_of_load hload) hoverride
  have hword := GoFile.isPackageWord_of_isPackageName hstable.isPackageName
  have hname := Text.withoutFinalLineFeed_or s'.packageName
  generalize s'.packageName.withoutFinalLineFeed = name at hword hname
  refine ⟨name, hword.ne_nil, hword.forall_mem, hword.not_isDigit_head, ?_⟩
  rcases hname with hname | hname
  · refine .inl ⟨hname, fun ss ↦ ?_⟩
    rw [hname, GoFile.splitOn_render_append hword.isLine [] rfl]
    refine ⟨rfl, fun hss ↦ ?_⟩
    exact List.head?_eq_getElem?.symm.trans (GoFile.head?_splitOn_declarations hss)
  · refine .inr ⟨hname, fun ss ↦ ?_⟩
    have hfeeds : (s'.packageName ++ "\n" : Text) = name ++ ('\n' : CodePoint) :: "\n" := by
      rw [hname, List.append_assoc]
      rfl
    rw [GoFile.splitOn_render_append hword.isLine "\n" hfeeds]
    exact ⟨rfl, rfl⟩

def renamedSource : Json := .object [("package_name", .text "terms")]

def renamedUpdates : GivenSettings := [("package_name", .text "_terms2"), ("output_path", .null)]

theorem renamed_clause : ∃ s s', (load ⟨[], []⟩ renamedSource).result = .ok s ∧
    s.override renamedUpdates = .ok s' ∧
    ∀ ss, ((GoFile.render s'.packageName ss).splitOn '\n')[2]? = some ("package _terms2" : Text) := by
  have hevaluated : (load ⟨[], []⟩ renamedSource).result.toOption.bind (fun s ↦
      (s.override renamedUpdates).toOption.map packageName) = some ("_terms2" : Text) := by decide +kernel
  obtain ⟨s, hload, h⟩ := exists_of_toOption_bind_eq_some hevaluated
  obtain ⟨s', hoverride, hpackage⟩ := exists_of_toOption_map_eq_some h
  refine ⟨s, s', hload, hoverride, fun ss ↦ ?_⟩
  obtain ⟨name, -, -, -, ⟨-, hlines⟩ | ⟨hfeed, -⟩⟩ := package_clause hload hoverride
  · rw [(hlines ss).1, hpackage]
    rfl
  · have hmem : ('\n' : CodePoint) ∈ s'.packageName :=
      hfeed ▸ List.mem_append_right name List.mem_cons_self
    rw [hpackage] at hmem
    exact absurd hmem (by decide)

def fedSource : Json := .object [("package_name", .text "a\n")]

/-- A line feed at the end of a name passes the check and breaks the clause. -/
theorem fed_clause_broken : ∃ s s', (load ⟨[], []⟩ fedSource).result = .ok s ∧
    s.override [] = .ok s' ∧
    (¬ ∀ c ∈ s'.packageName, c.isLower ∨ c.isDigit ∨ c = '_') ∧
    ((GoFile.render s'.packageName []).splitOn '\n')[2]? ≠
      some ("package " ++ s'.packageName : Text) := by
  have hevaluated : (load ⟨[], []⟩ fedSource).result.toOption.bind (fun s ↦
      (s.override []).toOption.map packageName) = some ("a\n" : Text) := by decide +kernel
  obtain ⟨s, hload, h⟩ := exists_of_toOption_bind_eq_some hevaluated
  obtain ⟨s', hoverride, hpackage⟩ := exists_of_toOption_map_eq_some h
  refine ⟨s, s', hload, hoverride, ?_⟩
  rw [hpackage]
  have hmem : ('\n' : CodePoint) ∈ ("a\n" : Text) := by decide
  have hclause : ((GoFile.render "a\n" []).splitOn '\n')[2]? = some ("package a" : Text) := by
    decide +kernel
  refine ⟨fun h ↦ absurd (h _ hmem) (by decide), ?_⟩
  rw [hclause]
  decide

end Settings

end OntologyStructs
