import IdeModules.Proofs.Rerun
import IdeModules.Proofs.Verbatim

/-!
# The list in the workspace file

Listing modules changes the children of one element, the first list of the first manager, and adds
what is missing of the two behind the other children.  Nothing else of the file changes, and
listing the same modules again changes nothing at all: what is replaced is there, and it is
indented as before.
-/

namespace IdeModules

open Xml

/-! ## What changes -/

/-- Whether the first child that passes a test has changed, or where none passes it, a child has
been added behind the others and changed. -/
inductive ChangesFirst (test : Node → Bool) (changes : Node → Node → Prop) (added : Node) :
    List Node → List Node → Prop where
  | inPlace {front back : List Node} {node after : Node}
      (before : ∀ other ∈ front, test other = false) (isFirst : test node = true)
      (changed : changes node after) :
    ChangesFirst test changes added (front ++ node :: back) (front ++ after :: back)
  | atEnd {nodes : List Node} {after : Node} (noneThere : ∀ other ∈ nodes, test other = false)
      (changed : changes added after) :
    ChangesFirst test changes added nodes (nodes ++ [after])

/-- Whether nothing of an element has changed but its children. -/
inductive ChangesInside (changes : List Node → List Node → Prop) : Node → Node → Prop where
  | element {name : Name} {attributes : Attributes} {text tail : String}
      {children later : List Node} (changed : changes children later) :
    ChangesInside changes (.element name attributes text children tail)
      (.element name attributes text later tail)

/-- The children of a list of modules. -/
def moduleNodes (modules : List ListedModule) : List Node :=
  modules.map fun listed => Node.ofElement listed.element ""

/-- Whether a module manager has changed in the children of its first list only. -/
def ChangesManager (modules : List ListedModule) : Node → Node → Prop :=
  ChangesInside (ChangesFirst (Node.isNamed "modules")
    (ChangesInside fun _ later => later = moduleNodes modules)
    (Node.ofElement (Element.make "modules" []) ""))

/-- Whether the root of a workspace file has changed in its first module manager only. -/
structure Relists (modules : List ListedModule) (before after : Element) : Prop where
  name : after.name = before.name
  attributes : after.attributes = before.attributes
  text : after.text = before.text
  children : ChangesFirst (isComponent moduleManager) (ChangesManager modules)
    (Node.ofElement (Element.make "component" [("name", moduleManager)]) "")
    before.children after.children

section Change

variable {test : Node → Bool} {change : Element → Element}

/-- A changed child is the first one that passes the test, or is added for it. -/
theorem changesFirst_changeChild {changes : Node → Node → Prop} {child : Element}
    (passes : test (Node.ofElement child "") = true)
    (changed : ∀ node, test node = true → changes node (changedNode change node))
    (parent : Element) :
    ChangesFirst test changes (Node.ofElement child "") parent.children
      (changeChild test change (withChild test child parent)).children := by
  rw [changeChild, withChild]
  cases found : parent.children.find? test with
  | some node =>
      obtain ⟨isFirst, front, back, split, before⟩ := List.find?_eq_some_iff_append.mp found
      have absent : ∀ other ∈ front, test other = false := by simpa using before
      have has : parent.children.any test = true :=
        List.any_eq_true.mpr ⟨node, List.mem_of_find?_eq_some found, isFirst⟩
      rw [if_pos has]
      dsimp only
      rw [split, replaceFirst_at_first (by simpa using absent) isFirst]
      exact .inPlace absent isFirst (changed node isFirst)
  | none =>
      have absent : ∀ other ∈ parent.children, test other = false := by
        simpa using List.find?_eq_none.mp found
      have hasNone : ¬parent.children.any test = true := by simpa using absent
      rw [if_neg hasNone]
      dsimp only [Element.append]
      rw [replaceFirst_at_first (by simpa using absent) passes]
      exact .atEnd absent (changed _ passes)

theorem changesInside_changedNode {changes : List Node → List Node → Prop}
    (sameParts : ∀ element, (change element).name = element.name ∧
      (change element).attributes = element.attributes ∧ (change element).text = element.text)
    (changed : ∀ element, changes element.children (change element).children) {node : Node}
    (isElement : node.element?.isSome = true) :
    ChangesInside changes node (changedNode change node) := by
  cases node with
  | element name attributes text children tail =>
      let inner : Element := ⟨name, attributes, text, children⟩
      obtain ⟨sameName, sameAttributes, sameText⟩ := sameParts inner
      have whole : changedNode change (.element name attributes text children tail) =
          .element name attributes text (change inner).children tail := by
        show Node.element _ _ _ _ _ = _
        rw [sameName, sameAttributes, sameText]
        rfl
      rw [whole]
      exact .element (changed inner)
  | comment content tail => exact absurd isElement Bool.false_ne_true

end Change

theorem isSome_element?_of_isNamed {name : String} {node : Node}
    (isNamed : node.isNamed name = true) : node.element?.isSome = true := by
  cases node with
  | element localName attributes text children tail => rfl
  | comment content tail => exact isNamed

theorem isSome_element?_of_isComponent {name : String} {node : Node}
    (isFirst : isComponent name node = true) : node.element?.isSome = true :=
  Option.isSome_iff_exists.mpr (element?_of_isComponent isFirst)

section Listing

variable (modules : List ListedModule)

theorem children_listModules (list : Element) :
    (listModules modules list).children = moduleNodes modules := by
  rw [listModules, Element.withChildren, List.map_map]
  rfl

theorem changesInside_listModules {node : Node} (isList : node.isNamed "modules" = true) :
    ChangesInside (fun _ later => later = moduleNodes modules) node
      (changedNode (listModules modules) node) := by
  have sameParts (list : Element) : (listModules modules list).name = list.name ∧
      (listModules modules list).attributes = list.attributes ∧
      (listModules modules list).text = list.text := ⟨rfl, rfl, rfl⟩
  exact changesInside_changedNode sameParts (children_listModules modules)
    (isSome_element?_of_isNamed isList)

theorem changesManager_manageModules {node : Node}
    (isManager : isComponent moduleManager node = true) :
    ChangesManager modules node (changedNode (manageModules modules) node) :=
  changesInside_changedNode (sameParts_manageModules modules)
    (fun element => changesFirst_changeChild rfl
      (fun _ isList => changesInside_listModules modules isList) element)
    (isSome_element?_of_isComponent isManager)

theorem relists_writeModules (root : Element) :
    Relists modules root (writeModules modules root) := by
  obtain ⟨name, attributes, text⟩ : (writeModules modules root).name = root.name ∧
      (writeModules modules root).attributes = root.attributes ∧
      (writeModules modules root).text = root.text :=
    sameParts_changeChild _ root
  have isManager : isComponent moduleManager
      (Node.ofElement (Element.make "component" [("name", moduleManager)]) "") = true := by decide
  exact ⟨name, attributes, text, changesFirst_changeChild isManager
    (fun _ isFirst => changesManager_manageModules modules isFirst) root⟩

end Listing

/-! ## Reading the list -/

theorem bare_moduleNodes (modules : List ListedModule) :
    bare (moduleNodes modules) = moduleNodes modules := by
  rw [bare, moduleNodes, List.map_map]
  exact List.map_congr_left fun listed _ => rfl

/-- A tree with the same parts but for texts has a list with the same children but for texts. -/
theorem exists_listIn_of_same {modules : List ListedModule} {root found : Element}
    (same : found.change withoutTexts = (writeModules modules root).change withoutTexts) :
    ∃ list, listIn found = some list ∧ bare list.children = moduleNodes modules := by
  obtain ⟨list, isList⟩ := exists_listIn_writeModules modules root
  have sameList : (listIn found).map (Element.change withoutTexts) =
      some ((listModules modules list).change withoutTexts) := by
    have lists := congrArg listIn same
    rw [withoutTexts, listIn_ofTexts, listIn_ofTexts, isList] at lists
    exact lists
  obtain ⟨other, isOther, sameParts⟩ := Option.map_eq_some_iff.mp sameList
  refine ⟨other, isOther, ?_⟩
  have children : bare other.children = bare (listModules modules list).children := by
    have nodes := congrArg Element.children sameParts
    rwa [Element.change, Element.change, changeNodes_eq_map, changeNodes_eq_map] at nodes
  rw [children, children_listModules, bare_moduleNodes]

/-! ## Listing the same modules again -/

/-- Whether a test of children does not depend on their indentation. -/
def IgnoresIndentation (test : Node → Bool) : Prop :=
  ∀ depth indented node, IsIndented depth indented node → test indented = test node

/-- Whether a change of an indented child is that of the child itself, which it leaves alone but
for indentation. -/
def Stays (depth : Nat) (change : Element → Element) (node : Node) : Prop :=
  ∀ indented, IsIndented depth indented node → AlikeAt depth (changedNode change indented) node

section Stays

variable {test : Node → Bool} {change : Element → Element} {depth : Nat}
  (ignores : IgnoresIndentation test)

include ignores

theorem alike_replaceFirst {nodes : List Node}
    (stays : ∀ node, nodes.find? test = some node → Stays depth change node) :
    List.Forall₂ (AlikeAt depth)
      (replaceFirst test (changedNode change) (indentNodes depth nodes)) nodes := by
  induction nodes with
  | nil => exact .nil
  | cons node rest ih =>
      have sameTest : test (indentNode depth rest.isEmpty node) = test node :=
        ignores depth _ node ⟨_, rfl⟩
      rw [indentNodes, replaceFirst, sameTest]
      by_cases isFirst : test node = true
      · -- The children behind the first one that passes are indented and nothing else.
        rw [if_pos isFirst]
        exact .cons (stays node (List.find?_cons_of_pos isFirst) _ ⟨_, rfl⟩)
          ((forall₂_indentNodes depth rest).imp fun _ _ => IsIndented.alike)
      · rw [if_neg isFirst]
        rw [List.find?_cons_of_neg isFirst] at stays
        exact .cons (IsIndented.alike ⟨_, rfl⟩) (ih stays)

/-- Changing the first child that passes a test again leaves an element alone, if that child is. -/
theorem stays_changeChild {child inner : Element} {tail : String}
    (has : inner.children.any test = true)
    (stays : ∀ node, inner.children.find? test = some node → Stays (depth + 1) change node) :
    Stays depth (fun element => changeChild test change (withChild test child element))
      (Node.ofElement inner tail) := by
  rintro _ ⟨isLast, rfl⟩
  obtain ⟨name, attributes, text, children⟩ := inner
  dsimp only at has stays
  have hasIndented : (indentNodes (depth + 1) children).any test = true :=
    (any_indentNodes (ignores _) children).trans has
  have notEmpty : children ≠ [] := by
    rintro rfl
    exact Bool.false_ne_true has
  have notEmptyBool : ¬children.isEmpty = true := by simpa using notEmpty
  simp only [Node.ofElement, indentNode, changedNode, Node.element?, Node.tail, if_neg notEmptyBool,
    withChild, if_pos hasIndented, changeChild]
  refine alikeAt_element (alike_replaceFirst ignores stays) (.inr ⟨notEmpty, ?_⟩) ?_
  · exact fun other => orIndent_orIndent text other _
  · exact fun other => orIndent_orIndent tail other _

theorem indent_changeChild {child root : Element} (has : root.children.any test = true)
    (stays : ∀ node, root.children.find? test = some node → Stays 1 change node) :
    (changeChild test change (withChild test child root.indent)).indent = root.indent := by
  have hasIndented : root.indent.children.any test = true :=
    (any_indentNodes (ignores _) root.children).trans has
  have inner := indentNodes_congr (alike_replaceFirst ignores stays)
  have empties : (replaceFirst test (changedNode change) (indentNodes 1 root.children)).isEmpty =
      root.children.isEmpty := by
    rw [← isEmpty_indentNodes 1, inner, isEmpty_indentNodes]
  rw [withChild, if_pos hasIndented, changeChild]
  simp only [Element.indent, inner, empties]
  congr 1
  split <;> simp

end Stays

theorem exists_changed_of_find? {test : Node → Bool} {change : Element → Element}
    (passes : ∀ node, test node = true → test (changedNode change node) = true)
    (isElement : ∀ node, test node = true → node.element?.isSome = true) {child : Element}
    (added : test (Node.ofElement child "") = true) (parent : Element) :
    (changeChild test change (withChild test child parent)).children.any test = true ∧
      ∀ node, (changeChild test change (withChild test child parent)).children.find? test =
        some node → ∃ inner tail, node = Node.ofElement (change inner) tail := by
  obtain ⟨first, found⟩ := exists_find?_withChild child parent added
  have isChanged := find?_changeChild passes (withChild test child parent)
  rw [found] at isChanged
  constructor
  · exact List.any_eq_true.mpr ⟨_, List.mem_of_find?_eq_some isChanged, List.find?_some isChanged⟩
  · intro node isNode
    obtain rfl := Option.some.inj (isChanged.symm.trans isNode)
    cases first with
    | element name attributes text children tail => exact ⟨_, tail, rfl⟩
    | comment content tail => exact absurd (isElement _ (List.find?_some found)) Bool.false_ne_true

section Again

variable (modules : List ListedModule) {depth : Nat}

theorem stays_listModules (list : Element) (tail : String) :
    Stays depth (listModules modules) (Node.ofElement (listModules modules list) tail) := by
  rintro _ ⟨isLast, rfl⟩
  refine alikeAt_element (List.forall₂_same.mpr fun node _ => AlikeAt.refl _ node) ?_
    fun other => orIndent_orIndent tail other _
  -- Only a list without modules keeps its text as it stands, and it keeps it again.
  cases modules with
  | nil => exact .inl rfl
  | cons first rest =>
      exact .inr ⟨List.cons_ne_nil _ _, fun other => orIndent_orIndent list.text other _⟩

theorem stays_manageModules (component : Element) (tail : String) :
    Stays depth (manageModules modules)
      (Node.ofElement (manageModules modules component) tail) := by
  have sameName (list : Element) : (listModules modules list).name = list.name := rfl
  have added : (Node.ofElement (Element.make "modules" []) "").isNamed "modules" = true := rfl
  obtain ⟨has, areLists⟩ := exists_changed_of_find? (isNamed_changedNode sameName)
    (fun _ => isSome_element?_of_isNamed) added component
  refine stays_changeChild (fun _ _ _ isIndented => isIndented.isNamed "modules") has ?_
  intro node found
  obtain ⟨list, listTail, rfl⟩ := areLists node found
  exact stays_listModules modules list listTail

/-- Modules that are listed in an indented tree are listed again without any change. -/
theorem indent_writeModules_again (root : Element) :
    (writeModules modules (writeModules modules root).indent).indent =
      (writeModules modules root).indent := by
  have passes (node : Node) (isManager : isComponent moduleManager node = true) :
      isComponent moduleManager (changedNode (manageModules modules) node) = true :=
    isComponent_changedNode (fun component => (sameParts_manageModules modules component).1)
      (fun component => (sameParts_manageModules modules component).2.1) node isManager
  have added : isComponent moduleManager
      (Node.ofElement (Element.make "component" [("name", moduleManager)]) "") = true := by decide
  obtain ⟨has, areManagers⟩ := exists_changed_of_find? passes
    (fun _ => isSome_element?_of_isComponent) added root
  refine indent_changeChild
    (fun _ _ _ isIndented => Descriptor.isComponent_of_indented isIndented _) has ?_
  intro node found
  obtain ⟨component, tail, rfl⟩ := areManagers node found
  exact stays_manageModules modules component tail

end Again

/-! ## Documents of the list -/

/-- What becomes of the tree of a workspace file when modules are listed and written as a text. -/
structure WritesList (modules : List ListedModule) (root relisted : Element) (text : String) :
    Prop where
  relists : Relists modules root relisted
  plain : root.Meets plainNames → relisted.Meets plainNames
  noReturns : root.Meets withoutReturns → relisted.Meets withoutReturns
  readable : ∀ keepsComments, (∃ found, readDocument keepsComments text = .ok found) ↔
    relisted.Meets plainNames
  listed : ∀ keepsComments found, readDocument keepsComments text = .ok found →
    ∃ list, listIn found = some list ∧ bare list.children = moduleNodes modules
  kept : ∀ keepsComments found, readDocument keepsComments text = .ok found →
    (relisted.change settling).IsVerbatim found
  again : relisted.Meets plainNames → relisted.Meets withoutReturns →
    workspaceDocument modules (some text) = .ok text

theorem withoutReturns_writeModules {modules : List ListedModule} {root : Element}
    (noReturns : root.Meets withoutReturns) : (writeModules modules root).Meets withoutReturns := by
  refine meets_writeModules_of_made (fun _ isMade => isMade.imp ?_ ?_ ?_) List.not_mem_nil
    (hasOnly_any _) (fun _ _ => ⟨hasOnly_any _, hasOnly_any _⟩) noReturns
  · exact fun _ _ _ => trivial
  · rintro _ rfl
    exact List.not_mem_nil
  · exact fun _ impossible => impossible.elim

theorem document_ne_empty (root : Element) : document root ≠ "" := by
  intro isEmpty
  have chars := congrArg String.toList isEmpty
  rw [document, String.toList_append, String.toList_append, declarationLine] at chars
  exact absurd chars (by simp)

section Written

variable {modules : List ListedModule} {root : Element}

/-- A written list is read if and only if other documents allow its names. -/
theorem IsWorkspace.readDocument_iff (isWorkspace : IsWorkspace root)
    (admitted : root.Meets admittedValues) (only : ∀ listed ∈ modules, listed.HasOnly isXmlChar)
    {keepsComments : Bool} {found : Element} :
    readDocument keepsComments (document (writeModules modules root).indent) = .ok found ↔
      (writeModules modules root).Meets plainNames ∧
        found = (writeModules modules root).indent.change settling := by
  obtain ⟨isSound, meets⟩ := isWorkspace.written modules
  have valuesAdmitted : (writeModules modules root).indent.Meets admittedValues :=
    (Element.meets_indent_iff fun _ => trivial).mpr (admittedValues_writeModules only admitted)
  have samePlain : (writeModules modules root).indent.Meets plainNames ↔
      (writeModules modules root).Meets plainNames := Element.meets_indent_iff fun _ => trivial
  constructor
  · intro read
    have plain := (legible_of_readDocument isSound read).1
    rw [readDocument_document_of_commentless isSound meets plain valuesAdmitted] at read
    exact ⟨samePlain.mp plain, (Except.ok.inj read).symm⟩
  · rintro ⟨plain, rfl⟩
    exact readDocument_document_of_commentless isSound meets (samePlain.mpr plain) valuesAdmitted
      keepsComments

theorem IsWorkspace.workspaceDocument_again (isWorkspace : IsWorkspace root)
    (admitted : root.Meets admittedValues) (only : ∀ listed ∈ modules, listed.HasOnly isXmlChar)
    (plain : (writeModules modules root).Meets plainNames)
    (noReturns : (writeModules modules root).Meets withoutReturns) :
    workspaceDocument modules (some (document (writeModules modules root).indent)) =
      .ok (document (writeModules modules root).indent) := by
  have settled : (writeModules modules root).indent.change settling =
      (writeModules modules root).indent := by
    apply ModuleSettings.change_settling_of_withoutReturns
    apply noReturns.indent
    intro depth
    simp [withoutReturns, lineIndent]
  refine workspaceDocument_eq_ok_iff.mpr ⟨(writeModules modules root).indent, ?_, ?_⟩
  · rw [workspaceStart_of_ne (document_ne_empty _), isWorkspace.readDocument_iff admitted only,
      settled]
    exact ⟨plain, rfl⟩
  · rw [indent_writeModules_again]

end Written

/-- Whatever a workspace file held, it can be written with a list of modules.  Its text is read
again if and only if other documents allow the names that are left of the file; then its list holds
exactly these modules, everything else is as it was, and unless a text has a carriage return in it,
listing the same modules again gives the same text. -/
theorem workspace_lists_modules {modules : List ListedModule} {existing : Option String}
    {root : Element} (only : ∀ listed ∈ modules, listed.HasOnly isXmlChar)
    (read : readDocument false (workspaceStart existing) = .ok root) :
    ∃ relisted text, workspaceDocument modules existing = .ok text ∧
      WritesList modules root relisted text := by
  have isWorkspace := IsWorkspace.of_readDocument read
  have admitted := (accepted_of_readDocument read).ofBoth.2
  refine ⟨writeModules modules root, document (writeModules modules root).indent, ?_, ?_⟩
  · exact workspaceDocument_eq_ok_iff.mpr ⟨root, read, rfl⟩
  · constructor
    case relists => exact relists_writeModules modules root
    case plain => exact plainNames_writeModules
    case noReturns => exact withoutReturns_writeModules
    case readable =>
      intro keepsComments
      simp only [isWorkspace.readDocument_iff admitted only, exists_and_left, exists_eq, and_true]
    case listed =>
      intro keepsComments found reread
      obtain ⟨_, rfl⟩ := (isWorkspace.readDocument_iff admitted only).mp reread
      exact exists_listIn_of_same (Descriptor.withoutTexts_settled _)
    case kept =>
      intro keepsComments found reread
      obtain ⟨_, rfl⟩ := (isWorkspace.readDocument_iff admitted only).mp reread
      exact (writeModules modules root).isVerbatim_indent
    case again => exact isWorkspace.workspaceDocument_again admitted only

/-- A descriptor in the root directory of a build, as it is listed. -/
def rootModule : ListedModule :=
  ⟨"file://$PROJECT_DIR$/a.iml", "$PROJECT_DIR$/a.iml"⟩

/-- A list that has been written over the template is written again without any change. -/
theorem root_module_is_listed_again : ∃ text found list,
    workspaceDocument [rootModule] none = .ok text ∧ readDocument false text = .ok found ∧
      listIn found = some list ∧ bare list.children = moduleNodes [rootModule] ∧
      workspaceDocument [rootModule] (some text) = .ok text := by
  have only : ∀ listed ∈ [rootModule], listed.HasOnly isXmlChar :=
    List.forall_mem_singleton.mpr ⟨hasOnly_of_ascii Descriptor.isXmlChar_of_ascii (by decide),
      hasOnly_of_ascii Descriptor.isXmlChar_of_ascii (by decide)⟩
  have read : readDocument false (workspaceStart none) = .ok Build.workspaceRoot :=
    Build.readDocument_workspaceTemplate
  have noReturns : Build.workspaceRoot.Meets withoutReturns := by
    simp [Build.workspaceRoot, Element.make, Element.meets_iff, meets_ofElement, withoutReturns]
  obtain ⟨relisted, text, written, writes⟩ := workspace_lists_modules only read
  have plain := writes.plain plainNames_workspaceRoot
  obtain ⟨found, reread⟩ := (writes.readable false).mpr plain
  obtain ⟨list, isList, holds⟩ := writes.listed false found reread
  exact ⟨text, found, list, written, reread, isList, holds,
    writes.again plain (writes.noReturns noReturns)⟩

/-- A workspace file of Latin characters, with a letter in a name that other documents do not allow
there. -/
def latinListText : String :=
  "<?xml version=\"1.0\" encoding=\"ISO-8859-1\"?><project><aª/></project>"

def latinListRoot : Element :=
  (Element.make "project" []).withChildren [Element.make "aÂª" []]

theorem readDocument_latinList : readDocument false latinListText = .ok latinListRoot := by
  rw [readDocument_eq_readChars]
  decide +kernel

/-- A workspace file of Latin characters is written, and then it is neither read nor written
again. -/
theorem latin_list_is_not_read_again : ∃ text,
    workspaceDocument [] (some latinListText) = .ok text ∧
      (∀ keepsComments found, readDocument keepsComments text ≠ .ok found) ∧
      ∀ again, workspaceDocument [] (some text) ≠ .ok again := by
  have read : readDocument false (workspaceStart (some latinListText)) = .ok latinListRoot := by
    rw [workspaceStart_of_ne (by decide), readDocument_latinList]
  have isWorkspace := IsWorkspace.of_readDocument read
  have admitted := (accepted_of_readDocument read).ofBoth.2
  have only : ∀ listed ∈ ([] : List ListedModule), listed.HasOnly isXmlChar := List.forall_mem_nil _
  have notPlain : ¬(writeModules [] latinListRoot).Meets plainNames :=
    not_plainNames_of_latin List.mem_cons_self
  have unread (keepsComments : Bool) (found : Element) :
      readDocument keepsComments (document (writeModules [] latinListRoot).indent) ≠ .ok found :=
    fun reread => notPlain ((isWorkspace.readDocument_iff admitted only).mp reread).1
  refine ⟨_, workspaceDocument_eq_ok_iff.mpr ⟨latinListRoot, read, rfl⟩, unread, ?_⟩
  intro again written
  obtain ⟨found, reread, _⟩ := workspaceDocument_eq_ok_iff.mp written
  rw [workspaceStart_of_ne (document_ne_empty _)] at reread
  exact unread false found reread

end IdeModules
