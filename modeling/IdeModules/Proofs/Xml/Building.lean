import IdeModules.Proofs.Xml.Printing

/-!
# Building a tree from its tokens

The tokens of the pieces of a tree build the tree again, at any place inside a
document whose scope leads the prefixes of the tree back to their namespaces.
A start tag opens an element in that scope, every child is added behind the
children before it, and the text behind a tag becomes the text or the tail that
it was printed from.
-/

namespace IdeModules.Xml

/-- Whether a scope leads from the written form of a name back to it. -/
def Name.IsServed (prefixes : Keyed String String) (scope : Scope) (name : Name) : Prop :=
  ∀ uri, name.space = some uri → uri ≠ "" ∧
    (prefixFor prefixes uri).toList ≠ declaringWord ∧
    scope.lookup (prefixFor prefixes uri).toList = some uri.toList

section Building

variable {prefixes : Keyed String String} {scope : Scope}

/-! ## Names -/

theorem nameIn_toList {uri localPart : String} (nonempty : uri ≠ "") :
    nameIn uri.toList localPart.toList = ⟨some uri, localPart⟩ := by
  have notEmpty : uri.toList.isEmpty = false := by
    simpa using nonempty
  simp [nameIn, notEmpty]

theorem elementName?_writtenName (plainScope : scope.lookup [] = none) {name : Name}
    (isServed : name.IsServed prefixes scope) :
    elementName? scope (writtenName prefixes name) = some name := by
  obtain ⟨space, localPart⟩ := name
  cases space with
  | none => simp [elementName?, writtenName, plainScope, nameIn]
  | some uri =>
      obtain ⟨nonempty, _, found⟩ := isServed uri rfl
      simp [elementName?, writtenName, found, nameIn_toList nonempty]

theorem attributeName?_writtenName {name : Name} (isServed : name.IsServed prefixes scope) :
    attributeName? scope (writtenName prefixes name) = some name := by
  obtain ⟨space, localPart⟩ := name
  cases space with
  | none => simp [attributeName?, writtenName, nameIn]
  | some uri =>
      obtain ⟨nonempty, _, found⟩ := isServed uri rfl
      simp [attributeName?, writtenName, found, nameIn_toList nonempty]

/-- Served names that are written alike are the same. -/
theorem writtenName_injective {name other : Name} (isServed : name.IsServed prefixes scope)
    (otherServed : other.IsServed prefixes scope)
    (same : writtenName prefixes name = writtenName prefixes other) : name = other := by
  have first := attributeName?_writtenName isServed
  rw [same, attributeName?_writtenName otherServed] at first
  exact (Option.some.inj first).symm

theorem declaredQualifier?_writtenName {name : Name} (isServed : name.IsServed prefixes scope)
    (notDeclaring : name ≠ Name.plain "xmlns") :
    declaredQualifier? (writtenName prefixes name) = none := by
  obtain ⟨space, localPart⟩ := name
  cases space with
  | none =>
      have different : localPart.toList ≠ declaringWord := by
        intro same
        obtain rfl : localPart = "xmlns" := String.toList_inj.mp same
        exact notDeclaring rfl
      simp [declaredQualifier?, writtenName, different]
  | some uri =>
      have different := (isServed uri rfl).2.1
      simp [declaredQualifier?, writtenName, different]

/-! ## Attributes -/

theorem allDifferent_iff_nodup {α : Type} [DecidableEq α] {items : List α} :
    allDifferent items = true ↔ items.Nodup := by
  induction items with
  | nil => simp [allDifferent]
  | cons item rest ih => simp [allDifferent, ih]

/-- What the attributes of a tag must be to be read back. -/
structure AreAttributes (prefixes : Keyed String String) (scope : Scope)
    (attributes : Attributes) : Prop where
  nodup : (Keyed.keys attributes).Nodup
  served : ∀ entry ∈ attributes, entry.1.IsServed prefixes scope
  notDeclaring : ∀ entry ∈ attributes, entry.1 ≠ Name.plain "xmlns"
  isText : ∀ entry ∈ attributes, entry.2.IsText

theorem AreAttributes.tail {entry : Name × AttributeValue} {rest : Attributes}
    (are : AreAttributes prefixes scope (entry :: rest)) :
    AreAttributes prefixes scope rest where
  nodup := (List.nodup_cons.mp are.nodup).2
  served := fun other member => are.served other (List.mem_cons_of_mem _ member)
  notDeclaring := fun other member => are.notDeclaring other (List.mem_cons_of_mem _ member)
  isText := fun other member => are.isText other (List.mem_cons_of_mem _ member)

theorem AreAttributes.declaresNothing {attributes : Attributes}
    (are : AreAttributes prefixes scope attributes) :
    ∀ written ∈ attributes.map (writtenAttribute prefixes),
      declaredQualifier? written.name = none := by
  intro written member
  obtain ⟨entry, known, rfl⟩ := List.mem_map.mp member
  exact declaredQualifier?_writtenName (are.served entry known) (are.notDeclaring entry known)

theorem attributesIn_written {attributes : Attributes}
    (are : AreAttributes prefixes scope attributes) :
    attributesIn scope (attributes.map (writtenAttribute prefixes)) = some attributes := by
  induction attributes with
  | nil => rfl
  | cons entry rest ih =>
      obtain ⟨name, value⟩ := entry
      obtain ⟨content, rfl⟩ := (are.isText _ List.mem_cons_self).eq_text
      have isServed := are.served _ List.mem_cons_self
      have declares :=
        declaredQualifier?_writtenName isServed (are.notDeclaring _ List.mem_cons_self)
      have found := attributeName?_writtenName isServed
      simp only at declares found
      rw [List.map_cons, attributesIn, writtenAttribute]
      simp only [declares, found, ih are.tail]
      simp [AttributeValue.chars]

theorem attributesIn_append_declared (scope : Scope) (declared : List (String × String))
    (written : List WrittenAttribute) :
    attributesIn scope (declared.map writtenSpace ++ written) = attributesIn scope written := by
  induction declared with
  | nil => rfl
  | cons entry rest ih =>
      rw [List.map_cons, List.cons_append, attributesIn, ← ih]
      simp [writtenSpace, declaredQualifier?]

theorem extendScope_declared {declared : List (String × String)}
    (may : ∀ entry ∈ declared, mayDeclare entry.2.toList entry.1.toList = true)
    (scope : Scope) (written : List WrittenAttribute) :
    extendScope scope (declared.map writtenSpace ++ written) =
      extendScope (scopeBehind declared scope) written := by
  induction declared generalizing scope with
  | nil => rfl
  | cons entry rest ih =>
      have mayHere := may entry (by simp)
      have inner := ih (fun other member => may other (List.mem_cons_of_mem _ member))
        ((entry.2.toList, entry.1.toList) :: scope)
      rw [List.map_cons, List.cons_append, extendScope]
      simp only [writtenSpace, declaredQualifier?, if_true, mayHere]
      rw [inner]
      simp [scopeBehind]

theorem extendScope_of_declares_nothing {written : List WrittenAttribute}
    (declaresNothing : ∀ entry ∈ written, declaredQualifier? entry.name = none)
    (scope : Scope) : extendScope scope written = some scope := by
  induction written with
  | nil => rfl
  | cons entry rest ih =>
      rw [extendScope, declaresNothing entry (by simp)]
      exact ih fun other member => declaresNothing other (List.mem_cons_of_mem _ member)

/-- The written names of declarations and attributes differ from each other. -/
theorem nodup_writtenNames {declared : List (String × String)} {attributes : Attributes}
    (prefixesNodup : (declared.map Prod.snd).Nodup)
    (are : AreAttributes prefixes scope attributes) :
    ((declared.map writtenSpace ++ attributes.map (writtenAttribute prefixes)).map
      WrittenAttribute.name).Nodup := by
  rw [List.map_append, List.map_map, List.map_map]
  refine List.Nodup.append ?_ ?_ ?_
  · have split : WrittenAttribute.name ∘ writtenSpace =
        (fun given : String => (⟨some declaringWord, given.toList⟩ : WrittenName)) ∘ Prod.snd :=
      rfl
    rw [split, ← List.map_map]
    apply prefixesNodup.map
    intro given other same
    exact String.toList_inj.mp (WrittenName.mk.inj same).2
  · have split : WrittenAttribute.name ∘ writtenAttribute prefixes =
        writtenName prefixes ∘ Prod.fst := rfl
    rw [split, ← List.map_map]
    refine List.Nodup.map_on ?_ are.nodup
    intro name member other otherMember same
    obtain ⟨entry, known, rfl⟩ := List.mem_map.mp member
    obtain ⟨another, anotherKnown, rfl⟩ := List.mem_map.mp otherMember
    exact writtenName_injective (are.served entry known) (are.served another anotherKnown) same
  · intro name inDeclared inAttributes
    obtain ⟨declaration, _, rfl⟩ := List.mem_map.mp inDeclared
    obtain ⟨entry, known, same⟩ := List.mem_map.mp inAttributes
    have declares := are.declaresNothing _ (List.mem_map_of_mem known)
    have sameName : (writtenAttribute prefixes entry).name = (writtenSpace declaration).name := same
    rw [sameName] at declares
    simp [writtenSpace, declaredQualifier?] at declares

/-! ## Start tags -/

def openedTag (prefixes : Keyed String String) (scope : Scope) (name : Name)
    (attributes : Attributes) : OpenElement :=
  ⟨(writtenName prefixes name).chars, scope, name, attributes, "", []⟩

theorem ofStart_written (declared : List (String × String)) (outer : Scope)
    (may : ∀ entry ∈ declared, mayDeclare entry.2.toList entry.1.toList = true)
    (prefixesNodup : (declared.map Prod.snd).Nodup) (behind : scopeBehind declared outer = scope)
    (plainScope : scope.lookup [] = none) {name : Name} {attributes : Attributes}
    (nameServed : name.IsServed prefixes scope)
    (are : AreAttributes prefixes scope attributes) :
    OpenElement.ofStart outer (writtenName prefixes name)
        (declared.map writtenSpace ++ attributes.map (writtenAttribute prefixes)) =
      some (openedTag prefixes scope name attributes) := by
  have differ := allDifferent_iff_nodup.mpr (nodup_writtenNames prefixesNodup are)
  have keysDiffer : allDifferent (attributes.map Prod.fst) = true :=
    allDifferent_iff_nodup.mpr are.nodup
  have extended := extendScope_declared may outer (attributes.map (writtenAttribute prefixes))
  rw [behind, extendScope_of_declares_nothing are.declaresNothing] at extended
  have kept := attributesIn_append_declared scope declared
    (attributes.map (writtenAttribute prefixes))
  rw [attributesIn_written are] at kept
  rw [OpenElement.ofStart]
  simp only [differ, extended, elementName?_writtenName plainScope nameServed, kept, keysDiffer,
    Bool.not_true, Option.bind_eq_bind, Option.bind_some]
  rfl

/-! ## Text -/

theorem steps_append (keepsComments : Bool) (progress : Progress) (front back : List Token) :
    progress.steps keepsComments (front ++ back) =
      (progress.steps keepsComments front).bind fun next => next.steps keepsComments back := by
  induction front generalizing progress with
  | nil => rfl
  | cons token rest ih =>
      rw [List.cons_append, Progress.steps, Progress.steps, Option.bind_assoc]
      simp only [ih]

theorem withTail_tail (node : Node) : node.withTail node.tail = node := by
  cases node <;> rfl

theorem addText_empty (opened : OpenElement) : opened.addText "" = opened := by
  obtain ⟨written, scope, name, attributes, text, children⟩ := opened
  cases children with
  | nil => simp [OpenElement.addText]
  | cons last others => simp [OpenElement.addText, withTail_tail]

theorem steps_textToken (opened : OpenElement) (outer : List OpenElement) (text : String) :
    (Progress.inside opened outer).steps true (Piece.textToken text.toList) =
      some (.inside (opened.addText text) outer) := by
  unfold Piece.textToken
  split
  · rename_i isEmpty
    obtain rfl : text = "" := by simpa using isEmpty
    rw [addText_empty]
    rfl
  · simp [Progress.steps, Progress.step, Progress.stepInside]

/-! ## Elements -/

/-- An open element once more children have been read. -/
def OpenElement.addChildren (opened : OpenElement) (children : List Node) : OpenElement :=
  { opened with children := children.reverse ++ opened.children }

theorem steps_tagPieces {progress : Progress} {outer : List OpenElement} {opened : OpenElement}
    {name : WrittenName} {attributes : List WrittenAttribute} {text tail : String}
    {children : List Node} {inner : List Piece}
    (fresh : opened.text = "" ∧ opened.children = []) (written : opened.written = name.chars)
    (started : ∀ isClosed, progress.step true (.start name attributes isClosed) =
      some (if isClosed then Progress.finish opened.close outer else .inside opened outer))
    (read : ∀ parent : OpenElement, parent.scope = opened.scope →
      (Progress.inside parent outer).steps true (inner.flatMap Piece.tokens) =
        some (.inside (parent.addChildren children) outer)) :
    progress.steps true
        ((tagPieces name attributes text children.isEmpty inner tail).flatMap Piece.tokens) =
      (Progress.finish ⟨opened.name, opened.attributes, text, children⟩ outer).steps true
        (Piece.textToken tail.toList) := by
  obtain ⟨written', scope, found, kept, text', children'⟩ := opened
  obtain ⟨rfl, rfl⟩ := fresh
  obtain rfl : written' = name.chars := written
  unfold tagPieces
  split
  · rename_i closed
    simp only [Bool.and_eq_true, decide_eq_true_eq, List.isEmpty_iff] at closed
    obtain ⟨rfl, rfl⟩ := closed
    simp [Piece.tokens, Markup.token, Progress.steps, started, OpenElement.close]
  · have inside := read ⟨name.chars, scope, found, kept, text, []⟩ rfl
    have finished : (Progress.inside
        (OpenElement.addChildren ⟨name.chars, scope, found, kept, text, []⟩ children) outer).step
          true (.finish name.chars) =
        some (Progress.finish ⟨found, kept, text, children⟩ outer) := by
      simp [Progress.step, Progress.stepInside, OpenElement.addChildren, OpenElement.close]
    have opening := steps_textToken ⟨name.chars, scope, found, kept, "", []⟩ outer text
    simp only [OpenElement.addText, String.empty_append] at opening
    simp only [List.flatMap_cons, List.flatMap_append, List.flatMap_nil, List.append_nil,
      Piece.tokens, Markup.token, List.cons_append, Progress.steps, started, Option.bind_some,
      steps_append, opening, inside, finished, Bool.false_eq_true, if_false]

/-- The rules of the trees that are built from their tokens in a scope. -/
def built (prefixes : Keyed String String) (scope : Scope) : TreeRules where
  tag name attributes := name.IsServed prefixes scope ∧
    AreAttributes prefixes scope attributes
  text _ := True
  comment _ := True

/-- Children are read in turn if each of them is read. -/
theorem steps_nodesPieces (nodes : List Node)
    (each : ∀ node ∈ nodes, ∀ (parent : OpenElement) (outer : List OpenElement),
      parent.scope = scope →
        (Progress.inside parent outer).steps true
            ((nodePieces prefixes node).flatMap Piece.tokens) =
          some (.inside (parent.addChild node) outer))
    (parent : OpenElement) (outer : List OpenElement) (inScope : parent.scope = scope) :
    (Progress.inside parent outer).steps true ((nodesPieces prefixes nodes).flatMap Piece.tokens) =
      some (.inside (parent.addChildren nodes) outer) := by
  induction nodes generalizing parent with
  | nil => rfl
  | cons node rest ih =>
      have first := each node (by simp) parent outer inScope
      have others := ih (fun other member => each other (by simp [member]))
        (parent.addChild node) inScope
      rw [nodesPieces, List.flatMap_append, steps_append, first, Option.bind_some, others]
      simp [OpenElement.addChildren, OpenElement.addChild]

theorem steps_nodePieces (plainScope : scope.lookup [] = none) {node : Node}
    (isBuilt : node.Meets (built prefixes scope)) (parent : OpenElement)
    (outer : List OpenElement) (inScope : parent.scope = scope) :
    (Progress.inside parent outer).steps true ((nodePieces prefixes node).flatMap Piece.tokens) =
      some (.inside (parent.addChild node) outer) := by
  induction node generalizing parent outer with
  | element name attributes text children tail ih =>
      obtain ⟨⟨nameServed, are⟩, _, childrenBuilt, _⟩ := meets_element.mp isBuilt
      have read := fun other : OpenElement => steps_nodesPieces children
        (fun child member => ih child member (childrenBuilt child member))
        other (parent :: outer)
      have opens := ofStart_written [] parent.scope (by simp) (by simp) inScope
        plainScope nameServed are
      have started : ∀ isClosed, (Progress.inside parent outer).step true
          (.start (writtenName prefixes name) (attributes.map (writtenAttribute prefixes))
            isClosed) =
          some (if isClosed then
            Progress.finish (openedTag prefixes scope name attributes).close (parent :: outer)
            else .inside (openedTag prefixes scope name attributes) (parent :: outer)) := by
        intro isClosed
        simp only [List.map_nil, List.nil_append] at opens
        simp [Progress.step, Progress.stepInside, Progress.start, opens]
      rw [nodePieces, steps_tagPieces ⟨rfl, rfl⟩ rfl started read, Progress.finish,
        steps_textToken]
      simp [OpenElement.addText, OpenElement.addChild, Node.ofElement, Node.withTail, Node.tail,
        openedTag]
  | comment content tail =>
      have text := steps_textToken (parent.addChild (.comment content "")) outer tail
      simp only [nodePieces, List.flatMap_singleton, Piece.tokens, Markup.token, Progress.steps,
        Progress.step, Progress.stepInside, if_true, Option.bind_some, String.ofList_toList, text]
      simp [OpenElement.addText, OpenElement.addChild, Node.withTail, Node.tail]

/-- The tokens of a printed document build its root. -/
theorem elementOfTokens_rootPieces {root : Element}
    (may : ∀ entry ∈ prefixesOf root, mayDeclare entry.2.toList entry.1.toList = true)
    (isBuilt : root.Meets (built (prefixesOf root) (documentScope root))) :
    elementOfTokens true ((rootPieces root "\n").flatMap Piece.tokens) = some root := by
  obtain ⟨⟨nameServed, are⟩, _, childrenBuilt⟩ := Element.meets_iff.mp isBuilt
  have plainScope := lookup_documentScope_nil root
  have prefixesNodup : ((declaredSpaces root).map Prod.snd).Nodup :=
    ((List.mergeSort_perm _ _).map Prod.snd).nodup_iff.mpr (assigned_prefixesOf root).prefixes
  have opens := ofStart_written (declaredSpaces root) outerScope
    (fun entry member => may entry (mem_declaredSpaces.mp member)) prefixesNodup rfl plainScope
    nameServed are
  have started : ∀ isClosed, Progress.before.step true
      (.start (writtenName (prefixesOf root) root.name)
        ((declaredSpaces root).map writtenSpace ++
          root.attributes.map (writtenAttribute (prefixesOf root))) isClosed) =
      some (if isClosed then
        Progress.finish (openedTag (prefixesOf root) (documentScope root) root.name
          root.attributes).close []
        else .inside (openedTag (prefixesOf root) (documentScope root) root.name
          root.attributes) []) := by
    intro isClosed
    rw [Progress.step, Progress.stepOutside, Progress.start, opens]
    · rfl
    · simp
  have read := fun other : OpenElement => steps_nodesPieces root.children
    (fun child member => steps_nodePieces plainScope (childrenBuilt child member)) other []
  rw [elementOfTokens, rootPieces, steps_tagPieces ⟨rfl, rfl⟩ rfl started read]
  rfl

end Building

end IdeModules.Xml
