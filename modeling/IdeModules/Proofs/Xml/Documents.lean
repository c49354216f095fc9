import IdeModules.Proofs.Xml.Building

/-!
# Printed documents are read back

A sound tree whose names and values every document may hold is read back from
its printed document, with every line end of its texts as a line feed.  If some
name or value is not of this kind, the printed document is refused.
-/

namespace IdeModules.Xml

/-! ## The root -/

theorem namesSpaces_change (change : PartChange) (name : Name) (attributes : Attributes) :
    namesSpaces name (change.attributes attributes) = namesSpaces name attributes := by
  simp [namesSpaces, PartChange.attributes, List.flatMap_map]

theorem nodeSpaces_change (change : PartChange) (node : Node) :
    nodeSpaces (node.change change) = nodeSpaces node := by
  induction node with
  | element name attributes text children tail ih =>
      rw [change_element, nodeSpaces, nodeSpaces, namesSpaces_change, nodesSpaces_eq_flatMap,
        nodesSpaces_eq_flatMap, List.flatMap_map, List.flatMap_congr ih]
  | comment content tail => rw [change_comment, nodeSpaces, nodeSpaces]

theorem prefixesOf_change (change : PartChange) (root : Element) :
    prefixesOf (root.change change) = prefixesOf root := by
  rw [prefixesOf, prefixesOf, Element.change, namesSpaces_change, changeNodes_eq_map,
    nodesSpaces_eq_flatMap, nodesSpaces_eq_flatMap, List.flatMap_map]
  simp only [nodeSpaces_change]

theorem isSpace_of_used {root : Element} (isSound : root.Meets sound) {uri : String}
    (used : uri ∈ usedSpaces root) : IsSpace uri := by
  refine Element.meets_usesOnly_iff.mp (isSound.imp ?_ (fun _ _ => trivial) fun _ _ => trivial)
    uri used
  rintro name attributes ⟨nameSound, _, attributesSound⟩ other member
  rcases List.mem_append.mp member with inName | inAttributes
  · exact nameSound.space other (Option.mem_toList.mp inName)
  · obtain ⟨entry, known, inEntry⟩ := List.mem_flatMap.mp inAttributes
    exact (attributesSound entry known).1.space other (Option.mem_toList.mp inEntry)

/-- The rules of sound trees in the scope of their document. -/
theorem built_of_sound {root : Element} (isSound : root.Meets sound) :
    root.Meets (built (prefixesOf root) (documentScope root)) := by
  have isServed : ∀ name : Name, name.Sound → (∀ uri, name.space = some uri →
      uri ∈ usedSpaces root) → name.IsServed (prefixesOf root) (documentScope root) := by
    intro name nameSound used uri inSpace
    exact ⟨(nameSound.space uri inSpace).nonempty, prefixFor_ne_declaringWord root uri,
      lookup_prefixFor (used uri inSpace)⟩
  have usesUsed := Element.meets_usesOnly_iff.mpr fun uri (used : uri ∈ usedSpaces root) => used
  refine (isSound.both usesUsed).imp ?_ (fun _ _ => trivial) fun _ _ => trivial
  rintro name attributes ⟨⟨nameSound, nodup, attributesSound⟩, usesOnlyKnown⟩
  refine ⟨isServed name nameSound fun uri inSpace => usesOnlyKnown uri ?_, nodup, ?_, ?_, ?_⟩
  · simp [namesSpaces, inSpace]
  · intro entry member
    refine isServed entry.1 (attributesSound entry member).1 fun uri inSpace =>
      usesOnlyKnown uri (List.mem_append_right _ (List.mem_flatMap.mpr ⟨entry, member, ?_⟩))
    simp [inSpace]
  · exact fun entry member => (attributesSound entry member).2.1
  · exact fun entry member => (attributesSound entry member).2.2

theorem WrittenName.isLegible_qualified (qualifier localPart : List Char) :
    WrittenName.isLegible ⟨some qualifier, localPart⟩ =
      (isNamePart false qualifier && isNamePart false localPart) :=
  rfl

theorem isNamePart_declaringWord : isNamePart false declaringWord = true := by
  decide

theorem sound_rootPieces {root : Element} (isSound : root.Meets sound) {tail : String}
    (tailSound : tail.toList.all isXmlChar = true) :
    ∀ piece ∈ rootPieces root tail, piece.Sound := by
  obtain ⟨⟨nameSound, _, attributesSound⟩, textSound, childrenSound⟩ :=
    Element.meets_iff.mp isSound
  refine sound_tagPieces (nameSound.written root) ?_ textSound tailSound ?_
  · intro written member
    rcases List.mem_append.mp member with declared | own
    · obtain ⟨entry, known, rfl⟩ := List.mem_map.mp declared
      refine ⟨?_, isNamePart_true (origin_of_mem (mem_declaredSpaces.mp known)).isNamePart⟩
      intro qualifier same
      exact Option.some.inj same ▸ isNamePart_declaringWord
    · obtain ⟨entry, known, rfl⟩ := List.mem_map.mp own
      exact (attributesSound entry known).1.written root
  · rw [nodesPieces_eq_flatMap]
    intro piece member
    obtain ⟨child, known, inChild⟩ := List.mem_flatMap.mp member
    exact sound_nodePieces root (childrenSound child known) piece inChild

theorem isLegible_writtenSpace {root : Element} (isSound : root.Meets sound)
    {entry : String × String} (member : entry ∈ declaredSpaces root) :
    (writtenSpace entry).isLegible = true := by
  have known := mem_declaredSpaces.mp member
  have admitted := (isSpace_of_used isSound (used_of_mem_prefixesOf known)).admitted
  have prefixLegible := (origin_of_mem known).isNamePart
  have nameLegible : (writtenSpace entry).name.isLegible = true := by
    rw [writtenSpace, WrittenName.isLegible_qualified, isNamePart_declaringWord, prefixLegible]
    rfl
  exact Bool.and_eq_true_iff.mpr ⟨nameLegible, admitted⟩

theorem isLegible_rootPieces {root : Element} (isSound : root.Meets sound) (tail : String) :
    (rootPieces root tail).all (·.markup.isLegible) = true ↔
      root.Meets plainNames ∧ root.Meets admittedValues := by
  have inner : (nodesPieces (prefixesOf root) root.children).all (·.markup.isLegible) = true ↔
      (∀ child ∈ root.children, child.Meets plainNames) ∧
        ∀ child ∈ root.children, child.Meets admittedValues := by
    rw [nodesPieces_eq_flatMap, List.all_flatMap, List.all_eq_true, ← forall₂_and]
    exact forall₂_congr fun child _ => isLegible_nodePieces root child
  have declared : ∀ entry ∈ (declaredSpaces root).map writtenSpace, entry.isLegible = true := by
    rw [List.forall_mem_map]
    exact fun entry member => isLegible_writtenSpace isSound member
  rw [rootPieces, isLegible_tagPieces, List.forall_mem_append, and_iff_right declared,
    ← and_assoc, isLegible_writtenTag, inner, Element.meets_iff, Element.meets_iff]
  · simp only [plainNames, admittedValues]
    tauto
  · intro isEmpty
    rw [List.isEmpty_iff.mp isEmpty]
    rfl

theorem map_settled_rootPieces (root : Element) (tail : String) :
    (rootPieces root tail).map Piece.settled =
      rootPieces (root.change settling) (settling.text tail) := by
  have inner : (nodesPieces (prefixesOf root) root.children).map Piece.settled =
      nodesPieces (prefixesOf root) (root.children.map (Node.change settling)) := by
    rw [nodesPieces_eq_flatMap, nodesPieces_eq_flatMap, List.map_flatMap, List.flatMap_map]
    exact List.flatMap_congr fun child _ => map_settled_nodePieces (prefixesOf root) child
  have declared : declaredSpaces (root.change settling) = declaredSpaces root := by
    rw [declaredSpaces, prefixesOf_change, declaredSpaces]
  rw [rootPieces, map_settled_tagPieces, inner, rootPieces, declared, prefixesOf_change]
  simp only [Element.change, changeNodes_eq_map, List.isEmpty_map, settling_attributes]

theorem admitted_settling {content : String} (admitted : content.toList.all isXmlChar = true) :
    (settling.text content).toList.all isXmlChar = true := by
  simp only [settling, String.toList_ofList, List.all_eq_true] at admitted ⊢
  intro c member
  rcases mem_normalizeLineEnds member with known | rfl
  · exact admitted c known
  · decide

theorem sound_settled {root : Element} (isSound : root.Meets sound) :
    (root.change settling).Meets sound := by
  refine Element.meets_change_iff.mpr (isSound.imp ?_ ?_ ?_)
  · intro name attributes tagSound
    show sound.tag name (settling.attributes attributes)
    rwa [settling_attributes]
  · exact fun _ admitted => admitted_settling admitted
  · exact fun _ isContent => isContent

/-! ## The prolog -/

theorem takeDeclaration_declarationLine (rest : List Char) :
    takeDeclaration (declarationLine.toList ++ rest) =
      some (some ⟨some "UTF-8".toList, false⟩, '\n' :: rest) :=
  rfl

theorem ofName_utf8 : Charset.ofName "UTF-8".toList = .ok .utf8 :=
  rfl

theorem skipProlog_root {c : Char} (rest : List Char) (notInstruction : c ≠ '?')
    (notDeclaration : c ≠ '!') (steps : Nat) :
    skipProlog plainDialect false (steps + 1) false ('\n' :: '<' :: c :: rest) =
      some (plainDialect, '<' :: c :: rest) := by
  have skipped : skipXmlSpace ('\n' :: '<' :: c :: rest) = '<' :: c :: rest := rfl
  rw [skipProlog, skipped]
  split
  · rename_i same
    exact absurd (List.cons.inj (List.cons.inj same).2).1 notInstruction
  · rename_i same
    exact absurd (List.cons.inj (List.cons.inj same).2).1 notDeclaration
  · rfl

/-- The declaration of a printed document settles nothing unusual. -/
theorem readProlog_declarationLine {c : Char} {rest : List Char} (notInstruction : c ≠ '?')
    (notDeclaration : c ≠ '!') :
    readProlog (declarationLine.toList ++ '<' :: c :: rest) =
      .ok (plainDialect, '<' :: c :: rest) := by
  have skipped : skipProlog ⟨Charset.utf8 = .latin, false⟩ false
      (('\n' :: '<' :: c :: rest).length + 1) false ('\n' :: '<' :: c :: rest) =
      some (plainDialect, '<' :: c :: rest) :=
    skipProlog_root rest notInstruction notDeclaration _
  rw [readProlog, takeDeclaration_declarationLine]
  simp only [Option.bind_some, ofName_utf8, Option.any_some]
  refine except_bind_eq_ok_iff.mpr ⟨.utf8, rfl, except_bind_eq_ok_iff.mpr ⟨_, rfl, ?_⟩⟩
  rw [skipped]
  rfl

/-! ## The document -/

theorem rootPieces_eq_cons {root : Element} (isSound : root.Meets sound) (tail : String) :
    ∃ c more, (rootPieces root tail).flatMap Piece.chars = '<' :: c :: more ∧
      c ≠ '?' ∧ c ≠ '!' := by
  obtain ⟨⟨nameSound, _⟩, _⟩ := Element.meets_iff.mp isSound
  obtain ⟨c, more, split, inName⟩ := (nameSound.written root).chars_eq_cons
  have notSeparator := not_separator_of_isNameChar inName
  rw [rootPieces, chars_tagPieces, split, List.cons_append]
  refine ⟨c, _, rfl, ?_, ?_⟩
  · rintro rfl
    exact absurd (by decide) notSeparator
  · rintro rfl
    exact absurd (by decide) notSeparator

/-- The text of a printed document, its line ends normalized, is that of the settled tree. -/
theorem normalizeLineEnds_document {root : Element} (isSound : root.Meets sound) :
    normalizeLineEnds (withoutMark (document root).toList) =
      declarationLine.toList ++
        (rootPieces (root.change settling) "\n").flatMap Piece.chars := by
  have unmarked : withoutMark (document root).toList = (document root).toList := by
    rw [toList_document (textual_of_sound isSound)]
    rfl
  have noCarriageReturn : '\r' ∉ declarationLine.toList := by decide
  have lineFeed : settling.text "\n" = "\n" := rfl
  have pieces := map_settled_rootPieces root "\n"
  rw [lineFeed] at pieces
  rw [unmarked, toList_document (textual_of_sound isSound),
    normalizeLineEnds_append_of_not_mem noCarriageReturn,
    normalizeLineEnds_pieces fun piece member =>
      (sound_rootPieces isSound (by decide) piece member).1, pieces]

/-- The root element of the characters of a document. -/
def readChars (keepsComments : Bool) (cs : List Char) : Except Error Element :=
  match readProlog (normalizeLineEnds (withoutMark cs)) with
  | .error failure => .error failure
  | .ok (dialect, body) =>
    match (tokens dialect body).bind (elementOfTokens keepsComments) with
    | some root => .ok root
    | none => .error .malformedMarkup

theorem readDocument_eq_readChars (keepsComments : Bool) (text : String) :
    readDocument keepsComments text = readChars keepsComments text.toList := by
  unfold readDocument readChars
  cases readProlog (normalizeLineEnds (withoutMark text.toList)) <;> rfl

theorem withoutMark_cons_of_ne {c : Char} (other : c ≠ '\ufeff') (rest : List Char) :
    withoutMark (c :: rest) = c :: rest := by
  unfold withoutMark
  split
  · rename_i split
    exact absurd (List.cons.inj split).1 other
  · rfl

/-- A document is read as the text that it has with line feeds as line ends. -/
theorem readDocument_normalized (keepsComments : Bool) (text : String) :
    readDocument keepsComments (String.ofList (normalizeLineEnds text.toList)) =
      readDocument keepsComments text := by
  have same : normalizeLineEnds (withoutMark (normalizeLineEnds text.toList)) =
      normalizeLineEnds (withoutMark text.toList) := by
    cases text.toList with
    | nil => rfl
    | cons c rest =>
        by_cases marked : c = '\ufeff'
        · have absent : '\r' ∉ ['\ufeff'] := by decide
          have split : normalizeLineEnds (c :: rest) = '\ufeff' :: normalizeLineEnds rest := by
            rw [marked]
            exact normalizeLineEnds_append_of_not_mem absent rest
          rw [split, marked]
          exact normalizeLineEnds_idem rest
        · obtain ⟨others, first⟩ := normalizeLineEnds_cons c rest
          have unmarked : withoutMark (normalizeLineEnds (c :: rest)) =
              normalizeLineEnds (c :: rest) := by
            rw [first]
            apply withoutMark_cons_of_ne
            split
            · decide
            · exact marked
          rw [unmarked, withoutMark_cons_of_ne marked, normalizeLineEnds_idem]
  rw [readDocument, String.toList_ofList, same, readDocument]

theorem readDocument_eq {keepsComments : Bool} {root : Element} (isSound : root.Meets sound) :
    readDocument keepsComments (document root) =
      match (tokens plainDialect
        ((rootPieces (root.change settling) "\n").flatMap Piece.chars)).bind
          (elementOfTokens keepsComments) with
      | some found => .ok found
      | none => .error .malformedMarkup := by
  obtain ⟨c, more, split, notInstruction, notDeclaration⟩ :=
    rootPieces_eq_cons (sound_settled isSound) "\n"
  rw [readDocument, normalizeLineEnds_document isSound, split,
    readProlog_declarationLine notInstruction notDeclaration]
  rfl

theorem readDocument_document {root : Element} (isSound : root.Meets sound)
    (namesPlain : root.Meets plainNames) (valuesAdmitted : root.Meets admittedValues) :
    readDocument true (document root) = .ok (root.change settling) := by
  have settledSound := sound_settled isSound
  have legible := (isLegible_rootPieces settledSound "\n").mpr
    ⟨(Element.meets_change_text_iff fun _ => trivial).mpr namesPlain,
      (Element.meets_change_text_iff fun _ => trivial).mpr valuesAdmitted⟩
  have may : ∀ entry ∈ prefixesOf (root.change settling),
      mayDeclare entry.2.toList entry.1.toList = true := fun entry member =>
    mayDeclare_of_mem member (isSpace_of_used settledSound (used_of_mem_prefixesOf member))
  rw [readDocument_eq isSound, tokens_pieces (sound_rootPieces settledSound (by decide)), legible]
  simp only [if_true, Option.bind_some,
    elementOfTokens_rootPieces may (built_of_sound settledSound)]

theorem legible_of_readDocument {keepsComments : Bool} {root found : Element}
    (isSound : root.Meets sound)
    (read : readDocument keepsComments (document root) = .ok found) :
    root.Meets plainNames ∧ root.Meets admittedValues := by
  have settledSound := sound_settled isSound
  rw [readDocument_eq isSound, tokens_pieces (sound_rootPieces settledSound (by decide))] at read
  by_cases legible : (rootPieces (root.change settling) "\n").all (·.markup.isLegible) = true
  · obtain ⟨namesPlain, valuesAdmitted⟩ := (isLegible_rootPieces settledSound "\n").mp legible
    exact ⟨(Element.meets_change_text_iff fun _ => trivial).mp namesPlain,
      (Element.meets_change_text_iff fun _ => trivial).mp valuesAdmitted⟩
  · simp [legible] at read

theorem plainNames_of_readDocument {root found : Element} (isSound : root.Meets sound)
    (read : readDocument true (document root) = .ok found) : found.Meets plainNames := by
  obtain ⟨namesPlain, valuesAdmitted⟩ := legible_of_readDocument isSound read
  rw [readDocument_document isSound namesPlain valuesAdmitted] at read
  obtain rfl := Except.ok.inj read
  exact (Element.meets_change_text_iff fun _ => trivial).mpr namesPlain

end IdeModules.Xml
