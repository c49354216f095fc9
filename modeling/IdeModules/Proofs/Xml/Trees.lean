import IdeModules.Xml.Printer

/-!
# Properties and changes of trees

A property of all parts of a tree is given by rules for its tags, its texts and
its comments.  A change of a tree touches attribute values and texts only: names,
comments and the order of children stay.
-/

namespace IdeModules.Xml

/-- A property of nodes holds of all if an element has it whenever its children do. -/
@[elab_as_elim, induction_eliminator]
theorem Node.inductionOn {motive : Node → Prop}
    (element : ∀ name attributes text children tail, (∀ child ∈ children, motive child) →
      motive (.element name attributes text children tail))
    (comment : ∀ content tail, motive (.comment content tail)) (node : Node) : motive node := by
  refine @Node.rec motive (fun nodes => ∀ child ∈ nodes, motive child) element comment ?_ ?_ node
  · simp
  · intro head tail headHolds tailHolds child member
    rcases List.mem_cons.mp member with rfl | inTail
    · exact headHolds
    · exact tailHolds child inTail

/-! ## Properties -/

/-- What is asked of the tags of a tree, of its texts and of its comments. -/
structure TreeRules where
  tag : Name → Attributes → Prop
  text : String → Prop
  comment : String → Prop

mutual

/-- Whether all parts of a child meet rules. -/
def Node.Meets (rules : TreeRules) : Node → Prop
  | .element name attributes text children tail =>
    rules.tag name attributes ∧ rules.text text ∧ NodesMeet rules children ∧ rules.text tail
  | .comment content tail => rules.comment content ∧ rules.text tail

def NodesMeet (rules : TreeRules) : List Node → Prop
  | [] => True
  | node :: rest => node.Meets rules ∧ NodesMeet rules rest

end

def Element.Meets (rules : TreeRules) (root : Element) : Prop :=
  rules.tag root.name root.attributes ∧ rules.text root.text ∧ NodesMeet rules root.children

section Meets

variable {rules others : TreeRules}

theorem nodesMeet_iff {nodes : List Node} :
    NodesMeet rules nodes ↔ ∀ node ∈ nodes, node.Meets rules := by
  induction nodes with
  | nil => simp [NodesMeet]
  | cons node rest ih => simp [NodesMeet, ih]

@[simp] theorem meets_element {name : Name} {attributes : Attributes} {text : String}
    {children : List Node} {tail : String} :
    (Node.element name attributes text children tail).Meets rules ↔
      rules.tag name attributes ∧ rules.text text ∧ (∀ child ∈ children, child.Meets rules) ∧
        rules.text tail := by
  rw [Node.Meets, nodesMeet_iff]

@[simp] theorem meets_comment {content tail : String} :
    (Node.comment content tail).Meets rules ↔ rules.comment content ∧ rules.text tail := by
  rw [Node.Meets]

theorem Element.meets_iff {root : Element} :
    root.Meets rules ↔ rules.tag root.name root.attributes ∧ rules.text root.text ∧
      ∀ child ∈ root.children, child.Meets rules := by
  rw [Element.Meets, nodesMeet_iff]

@[simp] theorem meets_ofElement {root : Element} {tail : String} :
    (Node.ofElement root tail).Meets rules ↔ root.Meets rules ∧ rules.text tail := by
  rw [Node.ofElement, meets_element, Element.meets_iff, and_assoc, and_assoc]

/-- What meets rules meets all rules that follow from them. -/
theorem Node.Meets.imp (tag : ∀ name attributes, rules.tag name attributes →
      others.tag name attributes)
    (text : ∀ content, rules.text content → others.text content)
    (comment : ∀ content, rules.comment content → others.comment content) {node : Node}
    (meets : node.Meets rules) : node.Meets others := by
  induction node with
  | element name attributes content children tail ih =>
      obtain ⟨tagMeets, textMeets, childrenMeet, tailMeets⟩ := meets_element.mp meets
      exact meets_element.mpr ⟨tag _ _ tagMeets, text _ textMeets,
        fun child member => ih child member (childrenMeet child member),
        text _ tailMeets⟩
  | comment content tail =>
      obtain ⟨commentMeets, tailMeets⟩ := meets_comment.mp meets
      exact meets_comment.mpr ⟨comment _ commentMeets, text _ tailMeets⟩

theorem Element.Meets.imp (tag : ∀ name attributes, rules.tag name attributes →
      others.tag name attributes)
    (text : ∀ content, rules.text content → others.text content)
    (comment : ∀ content, rules.comment content → others.comment content) {root : Element}
    (meets : root.Meets rules) : root.Meets others := by
  obtain ⟨tagMeets, textMeets, childrenMeet⟩ := Element.meets_iff.mp meets
  exact Element.meets_iff.mpr ⟨tag _ _ tagMeets, text _ textMeets,
    fun child member => (childrenMeet child member).imp tag text comment⟩

/-- Two rules at once. -/
def TreeRules.both (rules others : TreeRules) : TreeRules where
  tag name attributes := rules.tag name attributes ∧ others.tag name attributes
  text content := rules.text content ∧ others.text content
  comment content := rules.comment content ∧ others.comment content

theorem Node.Meets.both {node : Node} (meets : node.Meets rules) (meetsOthers : node.Meets others) :
    node.Meets (rules.both others) := by
  induction node with
  | element name attributes content children tail ih =>
      obtain ⟨tagMeets, textMeets, childrenMeet, tailMeets⟩ := meets_element.mp meets
      obtain ⟨tagToo, textToo, childrenToo, tailToo⟩ := meets_element.mp meetsOthers
      exact meets_element.mpr ⟨⟨tagMeets, tagToo⟩, ⟨textMeets, textToo⟩,
        fun child member =>
          ih child member (childrenMeet child member) (childrenToo child member),
        ⟨tailMeets, tailToo⟩⟩
  | comment content tail =>
      obtain ⟨commentMeets, tailMeets⟩ := meets_comment.mp meets
      obtain ⟨commentToo, tailToo⟩ := meets_comment.mp meetsOthers
      exact meets_comment.mpr ⟨⟨commentMeets, commentToo⟩, ⟨tailMeets, tailToo⟩⟩

theorem Element.Meets.both {root : Element} (meets : root.Meets rules)
    (meetsOthers : root.Meets others) : root.Meets (rules.both others) := by
  obtain ⟨tagMeets, textMeets, childrenMeet⟩ := Element.meets_iff.mp meets
  obtain ⟨tagToo, textToo, childrenToo⟩ := Element.meets_iff.mp meetsOthers
  exact Element.meets_iff.mpr ⟨⟨tagMeets, tagToo⟩, ⟨textMeets, textToo⟩,
    fun child member => (childrenMeet child member).both (childrenToo child member)⟩

theorem Element.Meets.ofBoth {root : Element} (meets : root.Meets (rules.both others)) :
    root.Meets rules ∧ root.Meets others := by
  constructor
  · refine meets.imp ?_ ?_ ?_
    · exact fun _ _ tag => tag.1
    · exact fun _ text => text.1
    · exact fun _ comment => comment.1
  · refine meets.imp ?_ ?_ ?_
    · exact fun _ _ tag => tag.2
    · exact fun _ text => text.2
    · exact fun _ comment => comment.2

/-- The text of a child changes nothing but the rule for its tail. -/
theorem Node.Meets.withTail {node : Node} (meets : node.Meets rules) {content : String}
    (text : rules.text content) : (node.withTail content).Meets rules := by
  cases node with
  | element name attributes content' children tail =>
      obtain ⟨tagMeets, textMeets, childrenMeet, _⟩ := meets_element.mp meets
      exact meets_element.mpr ⟨tagMeets, textMeets, childrenMeet, text⟩
  | comment content' tail => exact meets_comment.mpr ⟨(meets_comment.mp meets).1, text⟩

theorem Node.Meets.tail {node : Node} (meets : node.Meets rules) : rules.text node.tail := by
  cases node with
  | element name attributes content children tail => exact (meets_element.mp meets).2.2.2
  | comment content tail => exact (meets_comment.mp meets).2

end Meets

/-! ## Changes -/

/-- A change of attribute values and of texts. -/
structure PartChange where
  value : AttributeValue → AttributeValue
  text : String → String

namespace PartChange

/-- The attributes of a changed tag. -/
def attributes (change : PartChange) (entries : Attributes) : Attributes :=
  entries.map fun entry => (entry.1, change.value entry.2)

end PartChange

mutual

def Node.change (change : PartChange) : Node → Node
  | .element name attributes text children tail =>
    .element name (change.attributes attributes) (change.text text)
      (changeNodes change children) (change.text tail)
  | .comment content tail => .comment content (change.text tail)

def changeNodes (change : PartChange) : List Node → List Node
  | [] => []
  | node :: rest => node.change change :: changeNodes change rest

end

def Element.change (change : PartChange) (root : Element) : Element where
  name := root.name
  attributes := change.attributes root.attributes
  text := change.text root.text
  children := changeNodes change root.children

section Change

variable {change other : PartChange}

@[simp] theorem changeNodes_eq_map (nodes : List Node) :
    changeNodes change nodes = nodes.map (Node.change change) := by
  induction nodes with
  | nil => rfl
  | cons node rest ih => rw [changeNodes, ih, List.map_cons]

@[simp] theorem change_element (name : Name) (attributes : Attributes) (text : String)
    (children : List Node) (tail : String) :
    (Node.element name attributes text children tail).change change =
      .element name (change.attributes attributes) (change.text text)
        (children.map (Node.change change)) (change.text tail) := by
  rw [Node.change, changeNodes_eq_map]

@[simp] theorem change_comment (content tail : String) :
    (Node.comment content tail).change change = .comment content (change.text tail) := by
  rw [Node.change]

@[simp] theorem change_ofElement (root : Element) (tail : String) :
    (Node.ofElement root tail).change change =
      Node.ofElement (root.change change) (change.text tail) := by
  rw [Node.ofElement, change_element, Element.change, changeNodes_eq_map]
  rfl

@[simp] theorem element?_change (node : Node) :
    (node.change change).element? = node.element?.map (Element.change change) := by
  cases node with
  | element name attributes text children tail =>
      simp [Node.element?, Element.change]
  | comment content tail => simp [Node.element?]

@[simp] theorem isNamed_change (localPart : String) (node : Node) :
    (node.change change).isNamed localPart = node.isNamed localPart := by
  cases node <;> simp [Node.isNamed]

@[simp] theorem isNamedIn_change (names : List String) (node : Node) :
    (node.change change).isNamedIn names = node.isNamedIn names := by
  simp [Node.isNamedIn]

theorem attributes_attributes (entries : Attributes) :
    other.attributes (change.attributes entries) =
      PartChange.attributes ⟨other.value ∘ change.value, other.text ∘ change.text⟩ entries := by
  simp [PartChange.attributes]

/-- Two changes in turn are one. -/
theorem Node.change_change (node : Node) :
    (node.change change).change other =
      node.change ⟨other.value ∘ change.value, other.text ∘ change.text⟩ := by
  induction node with
  | element name attributes text children tail ih =>
      rw [change_element, change_element, change_element, attributes_attributes, List.map_map]
      congr 1
      exact List.map_congr_left fun child member => ih child member
  | comment content tail => simp

theorem Element.change_change (root : Element) :
    (root.change change).change other =
      root.change ⟨other.value ∘ change.value, other.text ∘ change.text⟩ := by
  have children : ∀ nodes : List Node,
      (nodes.map (Node.change change)).map (Node.change other) =
        nodes.map (Node.change ⟨other.value ∘ change.value, other.text ∘ change.text⟩) := by
    intro nodes
    rw [List.map_map]
    exact List.map_congr_left fun node _ => node.change_change
  simp only [Element.change, changeNodes_eq_map, children, attributes_attributes]
  rfl

/-- The rules that a change does not touch any part. -/
def PartChange.untouched (change : PartChange) : TreeRules where
  tag _ attributes := ∀ entry ∈ attributes, change.value entry.2 = entry.2
  text content := change.text content = content
  comment _ := True

theorem PartChange.attributes_untouched {entries : Attributes}
    (untouched : ∀ entry ∈ entries, change.value entry.2 = entry.2) :
    change.attributes entries = entries := by
  have same : ∀ entry ∈ entries, (entry.1, change.value entry.2) = entry := by
    intro entry member
    rw [untouched entry member]
  rw [PartChange.attributes, List.map_congr_left same, List.map_id']

theorem Node.change_untouched {node : Node} (untouched : node.Meets change.untouched) :
    node.change change = node := by
  induction node with
  | element name attributes text children tail ih =>
      obtain ⟨tagStays, textStays, childrenStay, tailStays⟩ := meets_element.mp untouched
      have children := List.map_congr_left fun child member =>
        ih child member (childrenStay child member)
      rw [change_element, PartChange.attributes_untouched tagStays, textStays, tailStays,
        children, List.map_id']
  | comment content tail =>
      rw [change_comment, (meets_comment.mp untouched).2]

theorem Element.change_untouched {root : Element} (untouched : root.Meets change.untouched) :
    root.change change = root := by
  obtain ⟨tagStays, textStays, childrenStay⟩ := Element.meets_iff.mp untouched
  have children := List.map_congr_left fun child member =>
    Node.change_untouched (childrenStay child member)
  rw [Element.change, PartChange.attributes_untouched tagStays, textStays, changeNodes_eq_map,
    children, List.map_id']

/-- The rules for a tree that its change meets the given ones. -/
def TreeRules.onChange (rules : TreeRules) (change : PartChange) : TreeRules where
  tag name attributes := rules.tag name (change.attributes attributes)
  text content := rules.text (change.text content)
  comment := rules.comment

theorem Node.meets_change_iff {rules : TreeRules} {node : Node} :
    (node.change change).Meets rules ↔ node.Meets (rules.onChange change) := by
  induction node with
  | element name attributes content children tail ih =>
      rw [change_element, meets_element, meets_element, List.forall_mem_map,
        forall₂_congr ih]
      rfl
  | comment content tail =>
      rw [change_comment, meets_comment, meets_comment]
      rfl

theorem Element.meets_change_iff {rules : TreeRules} {root : Element} :
    (root.change change).Meets rules ↔ root.Meets (rules.onChange change) := by
  rw [Element.meets_iff, Element.meets_iff, Element.change, changeNodes_eq_map,
    List.forall_mem_map, forall₂_congr fun child _ => Node.meets_change_iff]
  rfl

/-- Rules that texts have no part in hold of a tree whose texts change. -/
theorem Element.meets_change_text_iff {rules : TreeRules} (noText : ∀ content, rules.text content)
    {text : String → String} {root : Element} :
    (root.change ⟨id, text⟩).Meets rules ↔ root.Meets rules := by
  have unchanged : ∀ entries : Attributes,
      PartChange.attributes ⟨id, text⟩ entries = entries := fun entries =>
    PartChange.attributes_untouched fun _ _ => rfl
  rw [Element.meets_change_iff]
  constructor
  · intro meets
    refine meets.imp ?_ ?_ ?_
    · exact fun name attributes holds => unchanged attributes ▸ holds
    · exact fun content _ => noText content
    · exact fun _ holds => holds
  · intro meets
    refine meets.imp ?_ ?_ ?_
    · intro name attributes holds
      show rules.tag name (PartChange.attributes ⟨id, text⟩ attributes)
      rwa [unchanged attributes]
    · exact fun content _ => noText _
    · exact fun _ holds => holds

end Change

end IdeModules.Xml
