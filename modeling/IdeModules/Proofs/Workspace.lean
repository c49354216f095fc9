import IdeModules.Proofs.Descriptor.Overwriting
import IdeModules.Proofs.Descriptor.Rereading
import IdeModules.Proofs.Xml.Comments

/-!
# The list of all modules

The workspace file lists the modules that are written into it, in their order
and nothing else, whatever it held before; and so it does once it has been read
again.
-/

namespace IdeModules

open Xml

/-! ## Listed modules -/

/-- The descriptor that an element lists. -/
def ListedModule.ofElement (entry : Element) : ListedModule :=
  ⟨(entry.attribute? "fileurl").getD "", (entry.attribute? "filepath").getD ""⟩

/-- The list of a workspace file: the first one of its first module manager. -/
def listIn (root : Element) : Option Element :=
  (component? root moduleManager).bind (·.child? "modules")

/-- The modules that the list of a workspace file holds. -/
def modulesIn (root : Element) : List ListedModule :=
  ((listIn root).map fun list =>
    (list.childrenNamed "module").map ListedModule.ofElement).getD []

theorem listIn_ofTexts (text : String → String) (root : Element) :
    listIn (root.change (.ofTexts text)) = (listIn root).map (Element.change (.ofTexts text)) := by
  rw [listIn, listIn, component?_ofTexts, Option.bind_map]
  cases component? root moduleManager with
  | none => rfl
  | some component => exact child?_change (.ofTexts text) component "modules"

theorem modulesIn_ofTexts (text : String → String) (root : Element) :
    modulesIn (root.change (.ofTexts text)) = modulesIn root := by
  have sameEntry : ListedModule.ofElement ∘ Element.change (.ofTexts text) =
      ListedModule.ofElement := by
    funext entry
    simp [ListedModule.ofElement]
  rw [modulesIn, modulesIn, listIn_ofTexts]
  cases listIn root with
  | none => rfl
  | some list => simp [sameEntry]

theorem modulesIn_of_same {left right : Element}
    (same : left.change withoutTexts = right.change withoutTexts) :
    modulesIn left = modulesIn right := by
  rw [← modulesIn_ofTexts (fun _ => "") left, ← modulesIn_ofTexts (fun _ => "") right]
  exact congrArg modulesIn same

/-! ## Changing a child -/

section ChangeChild

variable {test : Node → Bool} {change : Element → Element}

theorem find?_changeChild
    (passes : ∀ node, test node = true → test (changedNode change node) = true)
    (parent : Element) :
    (changeChild test change parent).children.find? test =
      (parent.children.find? test).map (changedNode change) := by
  rw [changeChild]
  exact find?_replaceFirst passes parent.children

theorem element?_changedNode (node : Node) :
    (changedNode change node).element? = node.element?.map change := by
  cases node <;> rfl

theorem bind_element?_changedNode (found : Option Node) :
    (found.map (changedNode change)).bind Node.element? =
      (found.bind Node.element?).map change := by
  cases found with
  | none => rfl
  | some node => exact element?_changedNode node

theorem exists_find?_withChild (child parent : Element)
    (passes : test (Node.ofElement child "") = true) :
    ∃ node, (withChild test child parent).children.find? test = some node := by
  rw [← Option.isSome_iff_exists, List.find?_isSome, withChild]
  split
  · rename_i has
    exact List.any_eq_true.mp has
  · exact ⟨Node.ofElement child "", by simp [Element.append], passes⟩

theorem sameParts_changeChild (child parent : Element) :
    (changeChild test change (withChild test child parent)).name = parent.name ∧
      (changeChild test change (withChild test child parent)).attributes = parent.attributes ∧
      (changeChild test change (withChild test child parent)).text = parent.text := by
  rw [changeChild, withChild]
  split <;> exact ⟨rfl, rfl, rfl⟩

/-- Whether an element is a component is told by its name and attributes. -/
theorem isComponent_congr {name tail : String} {left right : Element}
    (sameName : left.name = right.name) (sameAttributes : left.attributes = right.attributes) :
    isComponent name (Node.ofElement left tail) = isComponent name (Node.ofElement right tail) := by
  simp only [Descriptor.isComponent_ofElement, Element.attribute?, sameName, sameAttributes]

theorem isComponent_changedNode {name : String}
    (sameName : ∀ element, (change element).name = element.name)
    (sameAttributes : ∀ element, (change element).attributes = element.attributes) (node : Node)
    (isFirst : isComponent name node = true) :
    isComponent name (changedNode change node) = true := by
  cases node with
  | element localName attributes text children tail =>
      exact (isComponent_congr (sameName _) (sameAttributes _)).trans isFirst
  | comment content tail => exact isFirst

theorem component?_changeChild {name : String}
    (sameName : ∀ element, (change element).name = element.name)
    (sameAttributes : ∀ element, (change element).attributes = element.attributes)
    (root : Element) :
    component? (changeChild (isComponent name) change root) name =
      (component? root name).map change := by
  rw [component?, component?, find?_changeChild (isComponent_changedNode sameName sameAttributes),
    bind_element?_changedNode]

theorem isNamed_changedNode {name : String}
    (sameName : ∀ element, (change element).name = element.name) (node : Node)
    (isNamed : node.isNamed name = true) : (changedNode change node).isNamed name = true := by
  cases node with
  | element localName attributes text children tail =>
      simpa [changedNode, Node.element?, Node.isNamed, Node.ofElement, sameName] using isNamed
  | comment content tail => exact isNamed

theorem child?_changeChild {name : String}
    (sameName : ∀ element, (change element).name = element.name) (parent : Element) :
    (changeChild (Node.isNamed name) change parent).child? name =
      (parent.child? name).map change := by
  rw [child?_eq_find?, child?_eq_find?, find?_changeChild (isNamed_changedNode sameName),
    bind_element?_changedNode]

end ChangeChild

/-! ## Writing the list -/

theorem ofElement_element (listed : ListedModule) :
    ListedModule.ofElement listed.element = listed := by
  simp [ListedModule.ofElement, ListedModule.element, attribute?_make, Keyed.get?]

theorem childrenNamed_listModules (modules : List ListedModule) (list : Element) :
    ((listModules modules list).childrenNamed "module").map ListedModule.ofElement = modules := by
  have areModules : (modules.map ListedModule.element).filter (·.name = Name.plain "module") =
      modules.map ListedModule.element := by
    apply List.filter_eq_self.mpr
    intro entry member
    obtain ⟨listed, _, rfl⟩ := List.mem_map.mp member
    rfl
  have isInverse : ListedModule.ofElement ∘ ListedModule.element = id :=
    funext ofElement_element
  rw [listModules, childrenNamed_withChildren, areModules, List.map_map, isInverse, List.map_id]

theorem exists_child?_withChild {name : String} (child parent : Element)
    (isNamed : child.name = Name.plain name) :
    ∃ found, (withChild (Node.isNamed name) child parent).child? name = some found := by
  have passes : (Node.ofElement child "").isNamed name = true := decide_eq_true isNamed
  obtain ⟨node, found⟩ := exists_find?_withChild child parent passes
  rw [child?_eq_find?, found, Option.bind_some]
  cases node with
  | element localName attributes text children tail => exact ⟨_, rfl⟩
  | comment content tail => exact absurd (List.find?_some found) Bool.false_ne_true

theorem exists_component?_withChild {name : String} (child root : Element)
    (isFirst : isComponent name (Node.ofElement child "") = true) :
    ∃ found, component? (withChild (isComponent name) child root) name = some found := by
  obtain ⟨node, found⟩ := exists_find?_withChild child root isFirst
  obtain ⟨component, isElement⟩ := element?_of_isComponent (List.find?_some found)
  exact ⟨component, by rw [component?_eq_some found, isElement]⟩

theorem sameParts_manageModules (modules : List ListedModule) (component : Element) :
    (manageModules modules component).name = component.name ∧
      (manageModules modules component).attributes = component.attributes ∧
      (manageModules modules component).text = component.text :=
  sameParts_changeChild _ component

theorem exists_listIn_writeModules (modules : List ListedModule) (root : Element) :
    ∃ list, listIn (writeModules modules root) = some (listModules modules list) := by
  let manager := Element.make "component" [("name", moduleManager)]
  have isManager : isComponent moduleManager (Node.ofElement manager "") = true := by decide
  obtain ⟨component, isFirst⟩ := exists_component?_withChild manager root isManager
  obtain ⟨list, isList⟩ := exists_child?_withChild (Element.make "modules" []) component rfl
  have written : component? (writeModules modules root) moduleManager =
      some (manageModules modules component) := by
    rw [writeModules, component?_changeChild (fun other => (sameParts_manageModules _ other).1)
      (fun other => (sameParts_manageModules _ other).2.1), isFirst]
    rfl
  have sameName (other : Element) : (listModules modules other).name = other.name := rfl
  have managed : (manageModules modules component).child? "modules" =
      some (listModules modules list) := by
    rw [manageModules, child?_changeChild sameName, isList]
    rfl
  exact ⟨list, by rw [listIn, written, Option.bind_some, managed]⟩

theorem modulesIn_writeModules (modules : List ListedModule) (root : Element) :
    modulesIn (writeModules modules root) = modules := by
  obtain ⟨list, isList⟩ := exists_listIn_writeModules modules root
  rw [modulesIn, isList, Option.map_some, Option.getD_some, childrenNamed_listModules]

/-! ## Rules of a written list -/

section Rules

variable {rules : TreeRules}

theorem meets_withChild {test : Node → Bool} {child parent : Element} (noText : rules.text "")
    (childMeets : child.Meets rules) (meets : parent.Meets rules) :
    (withChild test child parent).Meets rules := by
  rw [withChild]
  split
  · exact meets
  · obtain ⟨tagMeets, textMeets, childrenMeet⟩ := Element.meets_iff.mp meets
    refine Element.meets_iff.mpr ⟨tagMeets, textMeets, ?_⟩
    rw [Element.append, List.forall_mem_append, List.forall_mem_singleton]
    exact ⟨childrenMeet, meets_ofElement.mpr ⟨childMeets, noText⟩⟩

theorem meets_listModules {modules : List ListedModule} {list : Element} (noText : rules.text "")
    (entries : ∀ listed ∈ modules, listed.element.Meets rules) (meets : list.Meets rules) :
    (listModules modules list).Meets rules := by
  obtain ⟨tagMeets, textMeets, _⟩ := Element.meets_iff.mp meets
  refine Element.meets_iff.mpr ⟨tagMeets, textMeets, ?_⟩
  rw [listModules, Element.withChildren, List.forall_mem_map, List.forall_mem_map]
  exact fun listed member => meets_ofElement.mpr ⟨entries listed member, noText⟩

theorem meets_writeModules {modules : List ListedModule} {root : Element} (noText : rules.text "")
    (component : (Element.make "component" [("name", moduleManager)]).Meets rules)
    (list : (Element.make "modules" []).Meets rules)
    (entries : ∀ listed ∈ modules, listed.element.Meets rules) (meets : root.Meets rules) :
    (writeModules modules root).Meets rules :=
  meets_changeChild (fun _ componentMeets =>
    meets_changeChild (fun _ => meets_listModules noText entries)
      (meets_withChild noText list componentMeets))
    (meets_withChild noText component meets)

end Rules

/-- Whether a listed module is described by characters of some kind. -/
def ListedModule.HasOnly (allowed : Char → Bool) (listed : ListedModule) : Prop :=
  IdeModules.HasOnly allowed listed.url ∧ IdeModules.HasOnly allowed listed.path

theorem made_listedModule {allowed : Char → Bool} {listed : ListedModule}
    (only : listed.HasOnly allowed) : listed.element.Meets (made allowed) := by
  obtain ⟨urlOnly, pathOnly⟩ := only
  exact made_make ["fileurl", "filepath"] (by decide) rfl (by simpa using ⟨urlOnly, pathOnly⟩)

theorem Xml.commentless_of_made {allowed : Char → Bool} {node : Node}
    (isMade : node.Meets (made allowed)) : node.Meets commentless := by
  refine isMade.imp ?_ ?_ ?_
  · exact fun _ _ _ => trivial
  · exact fun _ _ => trivial
  · exact fun _ impossible => impossible

/-- Rules that elements meet which are made anew are kept by a workspace file. -/
theorem meets_writeModules_of_made {allowed : Char → Bool} {rules : TreeRules}
    (ofMade : ∀ node : Node, node.Meets (made allowed) → node.Meets rules)
    (noText : rules.text "") (named : HasOnly allowed moduleManager) {modules : List ListedModule}
    (only : ∀ listed ∈ modules, listed.HasOnly allowed) {root : Element}
    (meets : root.Meets rules) : (writeModules modules root).Meets rules := by
  have ofElement {element : Element} (isMade : element.Meets (made allowed)) :
      element.Meets rules := (meets_ofElement.mp (ofMade _ (made_ofElement isMade))).1
  exact meets_writeModules noText
    (ofElement (made_make ["name"] (by decide) rfl (by simpa using named)))
    (ofElement (made_make [] (by decide) rfl (by simp)))
    (fun listed member => ofElement (made_listedModule (only listed member))) meets

section Documents

variable {modules : List ListedModule} {root : Element}

theorem hasOnly_any (text : String) : HasOnly (fun _ => true) text := by
  simp [HasOnly]

theorem sound_writeModules (isSound : root.Meets sound) : (writeModules modules root).Meets sound :=
  meets_writeModules_of_made (fun _ => sound_of_made) rfl (hasOnly_any _)
    (fun _ _ => ⟨hasOnly_any _, hasOnly_any _⟩) isSound

theorem commentless_writeModules (meets : root.Meets commentless) :
    (writeModules modules root).Meets commentless :=
  meets_writeModules_of_made (fun _ => commentless_of_made) trivial (hasOnly_any _)
    (fun _ _ => ⟨hasOnly_any _, hasOnly_any _⟩) meets

theorem plainNames_writeModules (meets : root.Meets plainNames) :
    (writeModules modules root).Meets plainNames :=
  meets_writeModules_of_made (fun _ => plainNames_of_made) trivial (hasOnly_any _)
    (fun _ _ => ⟨hasOnly_any _, hasOnly_any _⟩) meets

theorem admittedValues_writeModules (only : ∀ listed ∈ modules, listed.HasOnly isXmlChar)
    (meets : root.Meets admittedValues) : (writeModules modules root).Meets admittedValues :=
  meets_writeModules_of_made (fun _ => admittedValues_of_made) trivial
    (hasOnly_of_ascii Descriptor.isXmlChar_of_ascii (by decide)) only meets

/-! ## Texts of workspace files -/

/-- The text that a workspace file is written over: an earlier one, or the template. -/
def workspaceStart (existing : Option String) : String :=
  (existing.filter (· ≠ "")).getD workspaceTemplate

theorem workspaceStart_empty : workspaceStart (some "") = workspaceTemplate :=
  rfl

theorem workspaceStart_of_ne {existing : String} (notEmpty : existing ≠ "") :
    workspaceStart (some existing) = existing := by
  simp [workspaceStart, Option.filter, notEmpty]

theorem workspaceDocument_eq_ok_iff {existing : Option String} {text : String} :
    workspaceDocument modules existing = .ok text ↔
      ∃ root, readDocument false (workspaceStart existing) = .ok root ∧
        text = document (writeModules modules root).indent := by
  rw [workspaceDocument, except_bind_eq_ok_iff]
  constructor
  · rintro ⟨root, isRead, serialized⟩
    exact ⟨root, isRead, (Descriptor.serialize_eq_ok_iff.mp serialized).2.symm⟩
  · rintro ⟨root, isRead, rfl⟩
    refine ⟨root, isRead, if_pos ?_⟩
    exact Descriptor.writable_of_textual (textual_of_sound
      (sound_indent (sound_writeModules (accepted_of_readDocument isRead).ofBoth.1)))

/-- The tree of a workspace file that has been written. -/
structure IsWorkspace (root : Element) : Prop where
  sound : root.Meets sound
  commentless : root.Meets commentless

theorem IsWorkspace.of_readDocument {text : String} (isRead : readDocument false text = .ok root) :
    IsWorkspace root :=
  ⟨(accepted_of_readDocument isRead).ofBoth.1, commentless_of_readDocument isRead⟩

theorem IsWorkspace.written (isWorkspace : IsWorkspace root) (modules : List ListedModule) :
    IsWorkspace (writeModules modules root).indent where
  sound := sound_indent (sound_writeModules isWorkspace.sound)
  commentless := (Element.meets_indent_iff fun _ => trivial).mpr
    (commentless_writeModules isWorkspace.commentless)

/-- The modules that have been written are those that every reader finds. -/
theorem IsWorkspace.modulesIn_of_read (isWorkspace : IsWorkspace root) {keepsComments : Bool}
    {found : Element}
    (read : readDocument keepsComments (document (writeModules modules root).indent) =
      .ok found) : modulesIn found = modules := by
  obtain ⟨isSound, meets⟩ := isWorkspace.written modules
  obtain ⟨namesPlain, valuesAdmitted⟩ := legible_of_readDocument isSound read
  rw [readDocument_document_of_commentless isSound meets namesPlain valuesAdmitted] at read
  obtain rfl := Except.ok.inj read
  rw [modulesIn_of_same (Descriptor.withoutTexts_settled _), modulesIn_writeModules]

theorem IsWorkspace.exists_read (isWorkspace : IsWorkspace root)
    (namesPlain : root.Meets plainNames) (valuesAdmitted : root.Meets admittedValues)
    (only : ∀ listed ∈ modules, listed.HasOnly isXmlChar) (keepsComments : Bool) :
    ∃ found, readDocument keepsComments (document (writeModules modules root).indent) =
      .ok found := by
  obtain ⟨isSound, meets⟩ := isWorkspace.written modules
  exact ⟨_, readDocument_document_of_commentless isSound meets
    ((Element.meets_indent_iff fun _ => trivial).mpr (plainNames_writeModules namesPlain))
    ((Element.meets_indent_iff fun _ => trivial).mpr
      (admittedValues_writeModules only valuesAdmitted)) keepsComments⟩

end Documents

namespace Build

variable {build : Build} {files : FileTree} {results : List GenerationResult} {text : String}

/-- The descriptor at a path as it is listed, seen from the root of the build. -/
def listedAt (build : Build) (start path : Path) : ListedModule :=
  let anchors := PathVariables.ofPairs start [("PROJECT_DIR", some build.rootDirectory)] none
  ⟨"file://" ++ anchors.render (some path), anchors.render (some path)⟩

theorem listed_eq (build : Build) (start : Path) (result : GenerationResult) :
    build.listed start result = build.listedAt start result.path :=
  rfl

theorem workspaceText_eq_ok_iff : build.workspaceText files results = .ok text ↔
    ∃ existing, build.existingWorkspace files = .ok existing ∧
      workspaceDocument (results.map (build.listed files.workingDirectory)) existing =
        .ok text := by
  rw [workspaceText, except_bind_eq_ok_iff]
  apply exists_congr
  intro existing
  apply and_congr_right
  intro _
  split
  · rename_i failed
    simp [failed]
  · rfl

/-- The list of all modules is written over that of a file, or over none. -/
theorem existingWorkspace_cases {existing : Option String}
    (isExisting : build.existingWorkspace files = .ok existing) :
    existing = none ∨ ∃ found, existing = some found ∧
      files.readText build.modulesPath = .ok found := by
  unfold existingWorkspace at isExisting
  split at isExisting
  · cases read : files.readText build.modulesPath with
    | error failure =>
        rw [read] at isExisting
        exact nomatch isExisting
    | ok found =>
        rw [read] at isExisting
        exact .inr ⟨found, (Except.ok.inj isExisting).symm, rfl⟩
  · exact .inl (Except.ok.inj isExisting).symm

end Build

end IdeModules
