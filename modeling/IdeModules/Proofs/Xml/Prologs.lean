import IdeModules.Proofs.Xml.Consumption
import IdeModules.Xml.Prolog

/-!
# What is left behind the prolog

Reading the prolog takes characters off the front of a document and nothing
else, so what holds of all characters of the document holds of all characters
of its root.
-/

namespace IdeModules.Xml

variable {dialect : Dialect}

/-- A mark of two characters behind white space. -/
theorem suffix_of_mark {first second : Char} {cs rest : List Char}
    (skipped : skipXmlSpace cs = first :: second :: rest) : rest <:+ cs :=
  ((Behind.cons second rest).trans (behind_of_skipXmlSpace skipped)).suffix

theorem suffix_of_requireSpace {cs rest : List Char} (required : requireSpace cs = some rest) :
    rest <:+ cs := by
  unfold requireSpace at required
  split at required
  · simp at required
  · exact suffix_of_skipXmlSpace (Option.some.inj required)

theorem suffix_of_takeIdentifier {allowed : Char → Bool} {cs rest : List Char}
    (taken : takeIdentifier allowed cs = some rest) : rest <:+ cs := by
  unfold takeIdentifier at taken
  split at taken
  · rename_i quoted
    split at taken
    · obtain rfl := Option.some.inj taken
      exact (behind_of_takeQuoted quoted).suffix
    · simp at taken
  · simp at taken

theorem suffix_of_identifierBehindSpace {allowed : Char → Bool} {cs rest : List Char}
    (taken : (requireSpace cs).bind (takeIdentifier allowed) = some rest) : rest <:+ cs := by
  obtain ⟨inner, required, identifier⟩ := Option.bind_eq_some_iff.mp taken
  exact (suffix_of_takeIdentifier identifier).trans (suffix_of_requireSpace required)

theorem suffix_of_skipExternal {needsSystem : Bool} {cs rest : List Char}
    (skipped : skipExternal needsSystem cs = some rest) : rest <:+ cs := by
  unfold skipExternal at skipped
  split at skipped
  · rename_i stripped
    exact (suffix_of_identifierBehindSpace skipped).trans (suffix_of_stripWord stripped)
  split at skipped
  · simp at skipped
  rename_i stripped
  split at skipped
  · simp at skipped
  rename_i identifier
  have behind := (suffix_of_identifierBehindSpace identifier).trans (suffix_of_stripWord stripped)
  split at skipped
  · rename_i last
    obtain rfl := Option.some.inj skipped
    exact (suffix_of_identifierBehindSpace last).trans behind
  · split at skipped
    · simp at skipped
    · obtain rfl := Option.some.inj skipped
      exact behind

theorem skipRepetition_suffix (cs : List Char) : skipRepetition cs <:+ cs := by
  unfold skipRepetition
  split
  · exact List.suffix_cons _ _
  · exact List.suffix_cons _ _
  · exact List.suffix_cons _ _
  · exact List.suffix_refl _

/-! ## Content models -/

/-- Particles and groups are read together: what holds of one with a step less holds of the
other. -/
theorem suffix_of_skipParticle_skipGroup (steps : Nat) :
    (∀ cs rest, skipParticle dialect steps cs = some rest → rest <:+ cs) ∧
      ∀ sign cs rest, skipGroup dialect steps sign cs = some rest → rest <:+ cs := by
  induction steps with
  | zero => simp [skipParticle, skipGroup]
  | succ steps ih =>
      obtain ⟨particle, group⟩ := ih
      constructor
      · intro cs rest skipped
        unfold skipParticle at skipped
        split at skipped
        · exact (group _ _ _ skipped).trans (List.suffix_cons _ _)
        · obtain ⟨⟨name, after⟩, taken, rfl⟩ := Option.map_eq_some_iff.mp skipped
          exact (skipRepetition_suffix after).trans (behind_of_takeName taken).suffix
      · intro sign cs rest skipped
        rw [skipGroup] at skipped
        split at skipped
        · simp at skipped
        rename_i inner innerSkipped
        have innerSuffix := (particle _ _ innerSkipped).trans (skipXmlSpace_suffix cs)
        split at skipped
        · rename_i closing
          obtain rfl := Option.some.inj skipped
          exact (skipRepetition_suffix _).trans
            ((behind_of_skipXmlSpace closing).suffix.trans innerSuffix)
        · rename_i closing
          split at skipped
          · exact (group _ _ _ skipped).trans
              ((behind_of_skipXmlSpace closing).suffix.trans innerSuffix)
          · simp at skipped
        · simp at skipped

theorem suffix_of_skipMixed {steps : Nat} {hasNames : Bool} {cs rest : List Char}
    (skipped : skipMixed dialect steps hasNames cs = some rest) : rest <:+ cs := by
  induction steps generalizing hasNames cs with
  | zero => simp [skipMixed] at skipped
  | succ steps ih =>
      rw [skipMixed] at skipped
      split at skipped
      · rename_i closing
        obtain rfl := Option.some.inj skipped
        exact suffix_of_mark closing
      · rename_i closing
        split at skipped
        · simp at skipped
        · obtain rfl := Option.some.inj skipped
          exact (behind_of_skipXmlSpace closing).suffix
      · rename_i inner closing
        obtain ⟨⟨name, after⟩, taken, others⟩ := Option.bind_eq_some_iff.mp skipped
        exact (ih others).trans
          ((behind_of_takeName taken).suffix.trans ((skipXmlSpace_suffix inner).trans
            (behind_of_skipXmlSpace closing).suffix))
      · simp at skipped

theorem suffix_of_skipModel {cs rest : List Char} (skipped : skipModel dialect cs = some rest) :
    rest <:+ cs := by
  unfold skipModel at skipped
  split at skipped
  · rename_i stripped
    exact Option.some.inj skipped ▸ suffix_of_stripWord stripped
  split at skipped
  · rename_i stripped
    exact Option.some.inj skipped ▸ suffix_of_stripWord stripped
  split at skipped
  · split at skipped
    · rename_i stripped
      exact (suffix_of_skipMixed skipped).trans ((suffix_of_stripWord stripped).trans
        ((skipXmlSpace_suffix _).trans (List.suffix_cons _ _)))
    · exact ((suffix_of_skipParticle_skipGroup _).2 _ _ _ skipped).trans (List.suffix_cons _ _)
  · simp at skipped

/-! ## Declarations -/

theorem suffix_of_skipElementDeclaration {cs rest : List Char}
    (skipped : skipElementDeclaration dialect cs = some rest) : rest <:+ cs := by
  simp only [skipElementDeclaration, Option.bind_eq_bind, Option.bind_eq_some_iff] at skipped
  obtain ⟨first, firstRequired, ⟨name, afterName⟩, taken, second, secondRequired, model,
    modelSkipped, closed⟩ := skipped
  split at closed
  · rename_i closing
    obtain rfl := Option.some.inj closed
    exact (behind_of_skipXmlSpace closing).suffix.trans
      ((suffix_of_skipModel modelSkipped).trans ((suffix_of_requireSpace secondRequired).trans
        ((behind_of_takeName taken).suffix.trans (suffix_of_requireSpace firstRequired))))
  · simp at closed

theorem suffix_of_skipNotationDeclaration {cs rest : List Char}
    (skipped : skipNotationDeclaration dialect cs = some rest) : rest <:+ cs := by
  simp only [skipNotationDeclaration, Option.bind_eq_bind, Option.bind_eq_some_iff] at skipped
  obtain ⟨first, firstRequired, ⟨name, afterName⟩, taken, second, secondRequired, external,
    externalSkipped, closed⟩ := skipped
  split at closed
  · rename_i closing
    obtain rfl := Option.some.inj closed
    exact (behind_of_skipXmlSpace closing).suffix.trans
      ((suffix_of_skipExternal externalSkipped).trans
        ((suffix_of_requireSpace secondRequired).trans
          ((behind_of_takePlainName taken).suffix.trans (suffix_of_requireSpace firstRequired))))
  · simp at closed

theorem suffix_of_skipDeclarations {steps : Nat} {cs rest : List Char} {refers : Bool}
    (skipped : skipDeclarations dialect steps cs = some (refers, rest)) : rest <:+ cs := by
  induction steps generalizing cs refers with
  | zero => simp [skipDeclarations] at skipped
  | succ steps ih =>
      rw [skipDeclarations] at skipped
      split at skipped
      · rename_i closing
        obtain ⟨_, rfl⟩ := Prod.mk.inj (Option.some.inj skipped)
        exact (behind_of_skipXmlSpace closing).suffix
      · rename_i opening
        split at skipped
        · rename_i taken
          obtain ⟨⟨refers', after⟩, others, same⟩ := Option.map_eq_some_iff.mp skipped
          obtain ⟨_, rfl⟩ := Prod.mk.inj same
          exact (ih others).trans ((List.suffix_cons _ _).trans
            ((behind_of_takePlainName taken).suffix.trans
              (behind_of_skipXmlSpace opening).suffix))
        · simp at skipped
      · rename_i opening
        obtain ⟨⟨token, after⟩, taken, others⟩ := Option.bind_eq_some_iff.mp skipped
        exact (ih others).trans
          ((behind_of_takeInstruction taken).suffix.trans (suffix_of_mark opening))
      · rename_i inner opening
        have innerSuffix := suffix_of_mark opening
        simp only at skipped
        obtain ⟨after, declared, others⟩ := Option.bind_eq_some_iff.mp skipped
        refine (ih others).trans (List.IsSuffix.trans ?_ innerSuffix)
        split at declared
        · rename_i stripped
          obtain ⟨⟨token, behind⟩, taken, rfl⟩ := Option.map_eq_some_iff.mp declared
          exact (behind_of_takeComment taken).suffix.trans (suffix_of_stripWord stripped)
        split at declared
        · rename_i stripped
          exact (suffix_of_skipElementDeclaration declared).trans (suffix_of_stripWord stripped)
        · obtain ⟨behind, stripped, notation'⟩ := Option.bind_eq_some_iff.mp declared
          exact (suffix_of_skipNotationDeclaration notation').trans (suffix_of_stripWord stripped)
      · simp at skipped

theorem suffix_of_skipDocumentType {cs rest : List Char} {refers : Bool}
    (skipped : skipDocumentType dialect cs = some (refers, rest)) : rest <:+ cs := by
  unfold skipDocumentType at skipped
  obtain ⟨first, required, behindSpace⟩ := Option.bind_eq_some_iff.mp skipped
  obtain ⟨⟨name, afterName⟩, taken, external⟩ := Option.bind_eq_some_iff.mp behindSpace
  refine List.IsSuffix.trans ?_
    ((behind_of_takeName taken).suffix.trans (suffix_of_requireSpace required))
  simp only at external
  split at external
  all_goals
    obtain ⟨⟨isOpen, afterExternal⟩, behind, subset⟩ := Option.bind_eq_some_iff.mp external
    -- Only white space and the closing bracket stand behind the subset, where there is one.
    have inside : rest <:+ afterExternal := by
      simp only at subset
      split at subset
      all_goals
        obtain ⟨⟨mentions, afterSubset⟩, declared, closed⟩ := Option.bind_eq_some_iff.mp subset
        simp only at closed
        split at closed
        case h_2 => simp at closed
        rename_i shown ahead closing
        obtain ⟨-, rfl⟩ := Prod.mk.inj (Option.some.inj closed)
        refine (behind_of_skipXmlSpace closing).suffix.trans ?_
      · rename_i opening
        exact (suffix_of_skipDeclarations declared).trans
          (behind_of_skipXmlSpace opening).suffix
      · obtain ⟨_, rfl⟩ := Prod.mk.inj (Option.some.inj declared)
        exact skipXmlSpace_suffix _
    refine inside.trans ?_
  · exact (Prod.mk.inj (Option.some.inj behind)).2 ▸ List.suffix_refl _
  · exact (Prod.mk.inj (Option.some.inj behind)).2 ▸ List.suffix_refl _
  · obtain ⟨found, foundBehind, same⟩ := Option.map_eq_some_iff.mp behind
    obtain ⟨_, rfl⟩ := Prod.mk.inj same
    obtain ⟨inner, spaceRequired, innerSkipped⟩ := Option.bind_eq_some_iff.mp foundBehind
    exact (suffix_of_skipExternal innerSkipped).trans (suffix_of_requireSpace spaceRequired)

/-! ## The prolog -/

theorem suffix_of_skipProlog {standsAlone hasType : Bool} {steps : Nat} {cs rest : List Char}
    {settled : Dialect}
    (skipped : skipProlog dialect standsAlone steps hasType cs = some (settled, rest)) :
    rest <:+ cs := by
  induction steps generalizing dialect hasType cs with
  | zero => simp [skipProlog] at skipped
  | succ steps ih =>
      rw [skipProlog] at skipped
      split at skipped
      · rename_i opening
        obtain ⟨⟨token, after⟩, taken, others⟩ := Option.bind_eq_some_iff.mp skipped
        exact (ih others).trans
          ((behind_of_takeInstruction taken).suffix.trans (suffix_of_mark opening))
      · rename_i inner opening
        have innerSuffix := suffix_of_mark opening
        split at skipped
        · rename_i stripped
          obtain ⟨⟨token, after⟩, taken, others⟩ := Option.bind_eq_some_iff.mp skipped
          exact (ih others).trans ((behind_of_takeComment taken).suffix.trans
            ((suffix_of_stripWord stripped).trans innerSuffix))
        split at skipped
        · simp at skipped
        split at skipped
        · simp at skipped
        rename_i declared
        obtain ⟨behind, stripped, documentType⟩ := Option.bind_eq_some_iff.mp declared
        exact (ih skipped).trans ((suffix_of_skipDocumentType documentType).trans
          ((suffix_of_stripWord stripped).trans innerSuffix))
      · obtain ⟨_, rfl⟩ := Prod.mk.inj (Option.some.inj skipped)
        exact skipXmlSpace_suffix cs

theorem suffix_of_takeDeclaration {cs rest : List Char} {declaration : Option Declaration}
    (taken : takeDeclaration cs = some (declaration, rest)) : rest <:+ cs := by
  unfold takeDeclaration at taken
  split at taken
  · obtain ⟨_, rfl⟩ := Prod.mk.inj (Option.some.inj taken)
    exact List.suffix_refl _
  · rename_i stripped
    split at taken
    · obtain ⟨_, rfl⟩ := Prod.mk.inj (Option.some.inj taken)
      exact List.suffix_refl _
    split at taken
    · simp at taken
    · rename_i cut
      obtain ⟨found, _, same⟩ := Option.map_eq_some_iff.mp taken
      obtain ⟨_, rfl⟩ := Prod.mk.inj same
      exact (suffix_of_cutAt cut).trans (suffix_of_stripWord stripped)

/-! ## Decoding -/

theorem mem_data_of_mem_toList {bytes : ByteArray} {byte : UInt8}
    (member : byte ∈ bytes.toList) : byte ∈ bytes.data.toList := by
  have loop : ∀ index taken, byte ∈ ByteArray.toList.loop bytes index taken →
      byte ∈ taken ∨ byte ∈ bytes.data.toList := by
    intro index taken
    induction index, taken using ByteArray.toList.loop.induct bytes with
    | case1 index taken inside ih =>
        intro inLoop
        rw [ByteArray.toList.loop, if_pos inside] at inLoop
        rcases ih inLoop with inTaken | inData
        · rcases List.mem_cons.mp inTaken with rfl | known
          · refine .inr ?_
            rw [ByteArray.get!, getElem!_pos bytes.data index inside]
            exact Array.getElem_mem_toList inside
          · exact .inl known
        · exact .inr inData
    | case2 index taken outside =>
        intro inLoop
        rw [ByteArray.toList.loop, if_neg outside] at inLoop
        exact .inl (List.mem_reverse.mp inLoop)
  exact (loop 0 [] member).resolve_left (by simp)

theorem carriageReturn_of_mem_utf8 {c : Char} {byte : UInt8} (isByte : byte.toNat = 13)
    (member : byte ∈ String.utf8EncodeChar c) : c = '\r' := by
  have number : ∀ n, byte = UInt8.ofNat n → n % 256 = 13 := by
    rintro n rfl
    simpa using isByte
  by_cases small : c.val.toNat ≤ 127
  · simp only [String.utf8EncodeChar, small, if_true, List.mem_singleton] at member
    have code := number _ member
    have same : c.val.toNat = 13 := by omega
    exact Char.ext (UInt32.toNat_inj.mp same)
  · -- every byte of a longer form is above the ASCII ones
    simp only [String.utf8EncodeChar, small, if_false] at member
    split at member
    · simp only [List.mem_cons, List.not_mem_nil, or_false] at member
      rcases member with first | second
      · exact absurd (number _ first) (by omega)
      · exact absurd (number _ second) (by omega)
    split at member
    · simp only [List.mem_cons, List.not_mem_nil, or_false] at member
      rcases member with first | second | third
      · exact absurd (number _ first) (by omega)
      · exact absurd (number _ second) (by omega)
      · exact absurd (number _ third) (by omega)
    · simp only [List.mem_cons, List.not_mem_nil, or_false] at member
      rcases member with first | second | third | fourth
      · exact absurd (number _ first) (by omega)
      · exact absurd (number _ second) (by omega)
      · exact absurd (number _ third) (by omega)
      · exact absurd (number _ fourth) (by omega)

theorem mem_of_mapM {bytes : List UInt8} {convert : UInt8 → Option Char} {chars : List Char}
    (mapped : bytes.mapM convert = some chars) {c : Char} (member : c ∈ chars) :
    ∃ byte ∈ bytes, convert byte = some c := by
  induction bytes generalizing chars with
  | nil =>
      obtain rfl : [] = chars := by simpa using mapped
      simp at member
  | cons byte rest ih =>
      rw [List.mapM_cons] at mapped
      obtain ⟨first, converted, others⟩ := Option.bind_eq_some_iff.mp mapped
      obtain ⟨more, restMapped, same⟩ := Option.bind_eq_some_iff.mp others
      obtain rfl := Option.some.inj same
      rcases List.mem_cons.mp member with rfl | inRest
      · exact ⟨byte, List.mem_cons_self, converted⟩
      · obtain ⟨found, known, foundConverted⟩ := ih restMapped inRest
        exact ⟨found, List.mem_cons_of_mem _ known, foundConverted⟩

/-- The carriage return is a byte of the characters that hold it only. -/
theorem ofNat_ne_of_mem_bytesOf {cs : List Char} (absent : '\r' ∉ cs) {byte : UInt8}
    (member : byte ∈ Charset.bytesOf cs) : Char.ofNat byte.toNat ≠ '\r' := by
  intro isReturn
  have isByte : byte.toNat = 13 := by
    have code := congrArg Char.toNat isReturn
    have small := byte.toNat_lt
    have valid : byte.toNat.isValidChar := .inl (by omega)
    rwa [Char.ofNat, dif_pos valid] at code
  have encoded := mem_data_of_mem_toList member
  rw [String.toUTF8, String.toByteArray_ofList, List.utf8Encode, List.toList_data_toByteArray]
    at encoded
  obtain ⟨c, known, inChar⟩ := List.mem_flatMap.mp encoded
  exact absent (carriageReturn_of_mem_utf8 isByte inChar ▸ known)

theorem charOf?_markup {chart : ByteChart} {byte : UInt8} {c : Char}
    (isChar : Charset.charOf? chart byte = some c) (isMarkup : isMarkupChar c = true) :
    c = Char.ofNat byte.toNat := by
  have small : byte.toNat ∈ List.range 256 := List.mem_range.mpr byte.toNat_lt
  have kept := List.all_eq_true.mp chart.keepsMarkup _ small
  unfold Charset.charOf? at isChar
  split at isChar
  · rename_i found held
    split at isChar
    · simp at isChar
    · obtain rfl := Option.some.inj isChar
      have stays : found = Char.ofNat byte.toNat ∧ found.toNat ≤ 0xffff := by
        simpa [keepsMarkupAt, List.getD_eq_getElem?_getD, held, isMarkup] using kept
      exact stays.1
  · simp at isChar

theorem not_mem_decode {charset : Charset} {cs decoded : List Char} (absent : '\r' ∉ cs)
    (decodes : charset.decode cs = .ok decoded) : '\r' ∉ decoded := by
  intro member
  unfold Charset.decode at decodes
  split at decodes
  · exact absent (Except.ok.inj decodes ▸ member)
  · obtain rfl := Except.ok.inj decodes
    obtain ⟨byte, inBytes, isReturn⟩ := List.mem_map.mp member
    exact ofNat_ne_of_mem_bytesOf absent inBytes isReturn
  · split at decodes
    · exact absent (Except.ok.inj decodes ▸ member)
    · simp at decodes
  · split at decodes
    · rename_i chars mapped
      obtain rfl := Except.ok.inj decodes
      obtain ⟨byte, inBytes, isReturn⟩ := mem_of_mapM mapped member
      exact ofNat_ne_of_mem_bytesOf absent inBytes (charOf?_markup isReturn (by decide)).symm
    · simp at decodes

theorem not_mem_of_readProlog {cs rest : List Char} {settled : Dialect} (absent : '\r' ∉ cs)
    (read : readProlog cs = .ok (settled, rest)) : '\r' ∉ rest := by
  unfold readProlog at read
  split at read
  · simp at read
  rename_i declaration behind taken
  have absentBehind : '\r' ∉ behind :=
    fun member => absent ((suffix_of_takeDeclaration taken).subset member)
  simp only at read
  split at read
  all_goals
    obtain ⟨charset, _, decoding⟩ := except_bind_ok read
    obtain ⟨decoded, decodes, skipping⟩ := except_bind_ok decoding
    have absentDecoded := not_mem_decode absentBehind decodes
    split at skipping
    · rename_i found skipped
      obtain rfl := Except.ok.inj skipping
      exact fun member => absentDecoded ((suffix_of_skipProlog skipped).subset member)
    · simp at skipping

end IdeModules.Xml
