import DocComment.LinkTable
import DocComment.Markup.Tree
import DocComment.Markup.Write
import DocComment.Proofs.Json.RoundTrip
import DocComment.Proofs.Markup.LinkTails
import DocComment.Proofs.Text.Percent

namespace DocComment

namespace Carrier

/-- Numbers of declarations are held in 32 bits. -/
def InRange (target : LinkTarget) : Prop :=
  ∀ id, target = .declarationRef id → id ≤ maxDeclaration

/-- Names a declaration that is not among the first `declared` ones. -/
def stale (declared : Nat) : LinkTarget → Bool
  | .declarationRef id => declared ≤ id
  | _ => false

theorem toJson_whole (target : LinkTarget) : (toJson target).Whole := by
  have whole : ∀ {kind : String} {value : Json}, value.Whole →
      (Json.object [("kind", .string kind), ("value", value)]).Whole := by
    intro kind value inner
    refine .object fun member listed => ?_
    simp only [List.mem_cons, List.not_mem_nil, or_false] at listed
    rcases listed with rfl | rfl
    · exact .string kind
    · exact inner
  cases target with
  | unresolved raw => exact whole (.string raw)
  | moduleRef name => exact whole (.string name)
  | declarationRef id => exact whole (.integer id)
  | uri address => exact whole (.string address)
  | inventoryRef entry =>
    refine whole (.object fun member listed => ?_)
    simp only [refMembers, List.mem_cons, List.not_mem_nil, or_false] at listed
    rcases listed with rfl | rfl | rfl | rfl <;> exact .string _

theorem ofJson?_toJson {target : LinkTarget} (inRange : InRange target) :
    ofJson? (toJson target) = some target := by
  cases target with
  | declarationRef id =>
    have bounded : id ≤ maxDeclaration := inRange id rfl
    simp [toJson, ofJson?, stringMember?, member?]
    exact if_pos bounded
  | inventoryRef entry =>
    simp [toJson, refMembers, ofJson?, stringMember?, member?, target?, inventoryRef?]
  | unresolved raw => simp [toJson, ofJson?, stringMember?, member?, target?]
  | moduleRef name => simp [toJson, ofJson?, stringMember?, member?, target?]
  | uri address => simp [toJson, ofJson?, stringMember?, member?, target?]

theorem stripStart_append (start rest : List Char) : Text.stripStart start (start ++ rest) = some rest := by
  induction start with
  | nil => rfl
  | cons c others ih => simpa [Text.stripStart] using ih

/-- What comes after the scheme. -/
def payload (target : LinkTarget) : List Char :=
  Text.percentEncode Text.isAlphanumericByte (Text.utf8Bytes (String.ofList (toJson target).chars))

@[simp] theorem encode_toList (target : LinkTarget) :
    (encode target).toList = scheme.toList ++ payload target := by
  simp [encode, payload]

theorem mem_payload {target : LinkTarget} {c : Char} (member : c ∈ payload target) :
    c.isAlphanum = true ∨ c = '%' :=
  Text.mem_percentEncode_alphanumeric member

theorem payload_ascii {target : LinkTarget} : ∀ c ∈ payload target, c.toNat < 128 := by
  intro c member
  rcases mem_payload member with letter | rfl
  · exact Text.ascii_of_isAlphanum letter
  · decide

theorem decode?_encode {target : LinkTarget} (inRange : InRange target) :
    decode? (encode target) = some target := by
  have after : Text.stripStart scheme.toList (encode target).toList = some (payload target) := by
    rw [encode_toList]
    exact stripStart_append _ _
  have bytes : Text.percentDecode (Text.utf8Bytes (String.ofList (payload target))) =
      Text.utf8Bytes (String.ofList (toJson target).chars) := by
    rw [Text.utf8Bytes_ascii payload_ascii]
    exact Text.percentDecode_percentEncode Text.isAlphanumericByte_kept _
  have json : Json.read? (String.ofList (toJson target).chars).toList = some (toJson target) := by
    rw [String.toList_ofList]
    exact Json.read?_chars (toJson_whole target)
  simp only [decode?, after, bytes, Text.ofUtf8?_utf8Bytes, json, Option.bind_eq_bind,
    Option.bind_some, ofJson?_toJson inRange]

theorem encode_ne_empty (target : LinkTarget) : encode target ≠ "" := by
  intro empty
  have chars := encode_toList target
  rw [empty] at chars
  exact absurd chars (by simp [scheme])

/-- None of the `marks` is written that is neither a letter or digit nor in the scheme. -/
theorem encode_avoids {marks : List Char}
    (outside : ∀ d ∈ marks, d.isAlphanum = false ∧ d ≠ '%' ∧ d ∉ scheme.toList) (target : LinkTarget) :
    ∀ c ∈ (encode target).toList, c ∉ marks := by
  intro c member marked
  obtain ⟨letter, percent, mark⟩ := outside c marked
  rw [encode_toList, List.mem_append] at member
  rcases member with own | own
  · exact mark own
  · rcases mem_payload own with alphanumeric | same
    · exact absurd (alphanumeric.symm.trans letter) (by decide)
    · exact percent same

/-- A target written as a title needs no escapes. -/
theorem escapeTitle_encode (target : LinkTarget) :
    Markup.escapeTitle (encode target) = (encode target).toList :=
  Markup.escapeOnly_of_bare (encode_avoids (by simp [scheme]) target)

theorem closeOpening_encode (target : LinkTarget) (children : List Entity) :
    Markup.closeOpening (.link "" (encode target)) children =
      [.node (.link (.unresolved (encode target)) "") children] := by
  simp [Markup.closeOpening, Markup.linkEntity, encode_ne_empty]

/-- A target written as a title is read as that title. -/
theorem inlineTail?_encode (target : LinkTarget) (rest : List Char) :
    Markup.inlineTail? (Markup.tailMarkup [] (Markup.escapeTitle (encode target)) ++ rest) =
      some (([], (encode target).toList), rest) := by
  have plain : ∀ c ∈ (encode target).toList, c ∉ ['\n', '\r', '&'] :=
    encode_avoids (by simp [scheme]) target
  simp only [List.mem_cons, List.not_mem_nil, or_false, not_or] at plain
  have name : Markup.Kept (Markup.escapeTitle (encode target)) (encode target) := by
    refine ⟨fun c member => ⟨(plain c member).1, (plain c member).2.1⟩, ?_⟩
    rw [escapeTitle_encode]
    exact Markup.holdsReference_of_plain fun c member => (plain c member).2.2
  exact Markup.inlineTail?_tailMarkup "" (encode target) rest ⟨nofun, rfl⟩ name

end Carrier

namespace LinkTable

/-- The target of a carrier is found again, unless it names a declaration that the source does not
have. -/
theorem resolve_encode (table : LinkTable) (scope : String) {target : LinkTarget}
    (inRange : Carrier.InRange target) :
    (table.resolve (Carrier.encode target) scope).1 =
      if Carrier.stale table.declared target then none else some target := by
  have schemed : Carrier.scheme.toList.isPrefixOf (Carrier.encode target).toList = true := by
    rw [Carrier.encode_toList]
    exact List.isPrefixOf_iff_prefix.mpr (List.prefix_append _ _)
  rw [resolve, if_pos schemed, carried, Carrier.decode?_encode inRange]
  cases target with
  | declarationRef id =>
    by_cases past : table.declared ≤ id <;> simp [Carrier.stale, past]
  | unresolved | moduleRef | inventoryRef | uri => rfl

end LinkTable

namespace Carrier

/-- A target with any text in it comes through: its address is read back as the target, is written of
letters, digits and percent signs only, needs no escapes in a title, and makes a link that is resolved
to the target for every index and from every scope. -/
theorem round_trip {target : LinkTarget} (inRange : InRange target) :
    decode? (encode target) = some target ∧
    (∃ payload, (encode target).toList = scheme.toList ++ payload ∧
      ∀ c ∈ payload, c.isAlphanum = true ∨ c = '%') ∧
    Markup.escapeTitle (encode target) = (encode target).toList ∧
    (∀ rest, Markup.inlineTail? (Markup.tailMarkup [] (Markup.escapeTitle (encode target)) ++ rest) =
      some (([], (encode target).toList), rest)) ∧
    (∀ children, Markup.closeOpening (.link "" (encode target)) children =
      [.node (.link (.unresolved (encode target)) "") children]) ∧
    ∀ (source : SourceTree) (index : Index) (order : SetOrder) (scope : String),
      ((LinkTable.build source index order).resolve (encode target) scope).1 =
        if stale source.size target then none else some target :=
  ⟨decode?_encode inRange, ⟨payload target, encode_toList target, fun _ => mem_payload⟩,
    escapeTitle_encode target, inlineTail?_encode target, closeOpening_encode target,
    fun source index order scope => (LinkTable.build source index order).resolve_encode scope inRange⟩

/-- Quotes, backslashes, control characters and letters beyond ASCII come through. -/
theorem round_trip_marks :
    decode? (encode (.inventoryRef ⟨"\"", "\\", "\x00\n\t\x1f", "é%😀"⟩)) =
        some (.inventoryRef ⟨"\"", "\\", "\x00\n\t\x1f", "é%😀"⟩) ∧
      InRange (.declarationRef 4294967295) ∧
      ∀ (index : Index) (order : SetOrder) (scope : String),
        ((LinkTable.build {} index order).resolve (encode (.declarationRef 4294967295)) scope).1 = none := by
  have last : InRange (.declarationRef 4294967295) := by
    rintro id ⟨⟩
    exact Nat.le_refl _
  have bounded : InRange (.inventoryRef ⟨"\"", "\\", "\x00\n\t\x1f", "é%😀"⟩) := by rintro id ⟨⟩
  refine ⟨(round_trip bounded).1, last, fun index order scope => ?_⟩
  rw [(round_trip last).2.2.2.2.2 {} index order scope]
  rfl

end Carrier

end DocComment
