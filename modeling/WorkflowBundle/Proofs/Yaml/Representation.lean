/-
This file says which nodes represent a value as it is written, and that they are read as the value.
-/

import WorkflowBundle.Proofs.Decimal
import WorkflowBundle.Yaml.Reader
import WorkflowBundle.Yaml.Writer

namespace WorkflowBundle.Yaml

def Node.tag? : Node → Option String
  | .scalar _ tag _ _ | .sequence _ tag _ | .mapping _ tag _ => tag
  | .alias _ => none

/-- A node without its tag. -/
def Node.untagged : Node → Node
  | .scalar anchor _ style text => .scalar anchor none style text
  | .sequence anchor _ items => .sequence anchor none items
  | .mapping anchor _ entries => .mapping anchor none entries
  | .alias anchor => .alias anchor

/-- A plain text may resolve to a scalar. -/
def resolvesTo (text : String) (value : Yaml) : Bool :=
  match resolve? text, value with
  | some .null, .null => true
  | some (.boolean first), .boolean second => first == second
  | some (.integer first), .integer second => first == second
  | some (.binary first), .binary second => first == second
  | some (.string first), .string second => first == second
  | _, _ => false

/-- A scalar without a tag stands for a value when it is plain, written as the value is, and
resolves to it, or when it is not plain and the value is its text. -/
def Node.standsFor (value : Yaml) : Node → Bool
  | .scalar _ none .plain text => value.block.alone == [text] && resolvesTo text value
  | .scalar _ none _ text =>
    match value with
    | .string content => content == text
    | _ => false
  | _ => false

mutual

/-- A value is represented at a depth by a node of the same form, without aliases and with tags of
its own only, and the keys of its mappings differ. -/
def represented : Yaml → Nat → Node → Bool
  | .sequence items, depth, node =>
    match depth, node with
    | depth + 1, .sequence _ none nodes => representedItems items depth nodes
    | _, _ => false
  | .mapping entries, depth, node =>
    match depth, node with
    | depth + 1, .mapping _ none nodes =>
      Read.hasDistinctKeys entries && representedEntries entries depth nodes
    | _, _ => false
  | .tagged own value, depth, node =>
    Read.ownTag? node.tag? == some own && represented value depth node.untagged
  | scalar, _, node => node.standsFor scalar

/-- Each item of a sequence has its node. -/
def representedItems : List Yaml → Nat → List Node → Bool
  | [], _, [] => true
  | item :: rest, depth, node :: nodes =>
    represented item depth node && representedItems rest depth nodes
  | _, _, _ => false

/-- Each entry of a mapping has nodes for its key and its value. -/
def representedEntries : List (Yaml × Yaml) → Nat → List (Node × Node) → Bool
  | [], _, [] => true
  | (key, value) :: rest, depth, (first, second) :: nodes =>
    represented key depth first && represented value depth second &&
      representedEntries rest depth nodes
  | _, _, _ => false

end

/-- A plain text resolves to the scalar that it stands for. -/
theorem resolve?_of_resolvesTo {text : String} {value : Yaml}
    (resolves : resolvesTo text value = true) : resolve? text = some value := by
  unfold resolvesTo at resolves
  split at resolves <;> simp_all

/-- A plain text resolves to no other string than itself. -/
theorem eq_of_resolve?_string {text content : String}
    (resolves : resolve? text = some (.string content)) : text = content := by
  unfold resolve? at resolves
  split at resolves
  · nomatch resolves
  · split at resolves
    · nomatch resolves
    · nomatch resolves
    · nomatch resolves
    · split at resolves
      · exact Yaml.string.inj (Option.some.inj resolves)
      · split at resolves
        · nomatch resolves
        · exact Yaml.string.inj (Option.some.inj resolves)

/-- A plain text that resolves to an integer has this integer in 64 bits. -/
theorem integer?_of_resolve? {text : String} {value : Int}
    (resolves : resolve? text = some (.integer value)) :
    integer? text.toList = some (.fits value) := by
  unfold resolve? at resolves
  split at resolves
  · nomatch resolves
  · split at resolves
    · nomatch resolves
    · rename_i other found
      obtain rfl := Yaml.integer.inj (Option.some.inj resolves)
      exact found
    · nomatch resolves
    · split at resolves
      · nomatch resolves
      · split at resolves <;> nomatch resolves

/-- A natural number as it is written resolves only if it has at most 64 bits, and is read as a
natural number then. -/
theorem natural?_of_resolve? {number : Nat}
    (resolves : resolve? (toString number) = some (.integer number)) :
    natural? (toString number).toList = some number ∧ number < Nat.pow 2 64 := by
  have size := integer?_of_resolve? resolves
  have unsigned : negative? (toString number).toList = none := by
    rw [negative?.eq_def]
    split
    · rename_i digits shape
      have digit := Decimal.isDigit_of_mem_toString_nat (shape ▸ List.mem_cons_self)
      exact absurd digit (by decide)
    · rfl
  rw [integer?, unsigned] at size
  cases found : natural? (toString number).toList with
  | none =>
      rw [found] at size
      nomatch size
  | some value =>
      rw [found] at size
      have fitting := Option.some.inj size
      split at fitting
      · rename_i fits
        obtain rfl : value = number := Int.ofNat.inj (IntegerSize.fits.inj fitting)
        exact ⟨rfl, fits⟩
      · split at fitting <;> nomatch fitting

/-- A node that stands for a value is a scalar without a tag. It is plain, written as the value is
and resolves to it, or the value is its text. -/
theorem standsFor_cases {value : Yaml} {node : Node} (stands : node.standsFor value = true) :
    ∃ anchor style text, node = .scalar anchor none style text ∧
      (style = .plain ∧ value.block.alone = [text] ∧ resolve? text = some value ∨
        style ≠ .plain ∧ value = .string text) := by
  rw [Node.standsFor.eq_def] at stands
  split at stands
  · rename_i anchor text
    obtain ⟨written, resolves⟩ := Bool.and_eq_true_iff.1 stands
    exact ⟨anchor, .plain, text, rfl,
      .inl ⟨rfl, eq_of_beq written, resolve?_of_resolvesTo resolves⟩⟩
  · rename_i anchor style text quoted
    split at stands
    · exact ⟨anchor, style, text, rfl, .inr ⟨quoted, congrArg _ (eq_of_beq stands)⟩⟩
    · nomatch stands
  · nomatch stands

/-- A scalar represents a value without a tag exactly when it stands for it. -/
theorem represented_scalar {value : Yaml} (untagged : ∀ own content, value ≠ .tagged own content)
    (depth : Nat) (anchor : Option Nat) (tag : Option String) (style : Style) (text : String) :
    represented value depth (.scalar anchor tag style text) =
      (Node.scalar anchor tag style text).standsFor value := by
  cases value with
  | tagged own content => exact absurd rfl (untagged own content)
  | sequence | mapping =>
      cases tag <;> cases style <;> simp [represented, Node.standsFor, resolvesTo]
  | _ => rfl

/-- A sequence is represented by a sequence of nodes for its items. -/
theorem represented_sequence {items : List Yaml} {depth : Nat} {node : Node}
    (holds : represented (.sequence items) depth node = true) :
    ∃ inner anchor nodes, depth = inner + 1 ∧ node = .sequence anchor none nodes ∧
      representedItems items inner nodes = true := by
  unfold represented at holds
  split at holds
  · exact ⟨_, _, _, rfl, rfl, holds⟩
  · nomatch holds

/-- A mapping is represented by a mapping of nodes for its entries, and its keys differ. -/
theorem represented_mapping {entries : Mapping} {depth : Nat} {node : Node}
    (holds : represented (.mapping entries) depth node = true) :
    ∃ inner anchor nodes, depth = inner + 1 ∧ node = .mapping anchor none nodes ∧
      Read.hasDistinctKeys entries = true ∧ representedEntries entries inner nodes = true := by
  unfold represented at holds
  split at holds
  · obtain ⟨distinct, each⟩ := Bool.and_eq_true_iff.1 holds
    exact ⟨_, _, _, rfl, rfl, distinct, each⟩
  · nomatch holds

namespace Read

section

variable (document : Node) (depth : Nat) (anchor : Option Nat) (tag : Option String)

/-- A scalar is read by its tag and style. -/
theorem value_scalar (style : Style) (text : String) :
    value document depth (.scalar anchor tag style text) =
      match ownTag? tag with
      | some own => do
        let content ← if style = .plain then plain text else pure (.string text)
        return .tagged own content
      | none => scalar tag style text := by
  rw [value]
  rfl

theorem value_sequence (items : List Node) :
    value document (depth + 1) (.sequence anchor tag items) =
      items.mapM (value document depth) >>= fun read => pure (value.wrap tag (.sequence read)) := by
  rw [value]
  rfl

/-- The keys and values of a mapping are read at the depth inside it, and the keys must differ. -/
theorem value_mapping (entries : List (Node × Node)) :
    value document (depth + 1) (.mapping anchor tag entries) =
      (entries.mapM fun entry => do
        let key ← value document depth entry.1
        let content ← value document depth entry.2
        return (key, content)) >>= fun read =>
          if hasDistinctKeys read then pure (value.wrap tag (.mapping read))
          else fail "duplicate entry" := by
  rw [value]
  rfl

end

/-- A scalar that stands for a value is read as it. -/
theorem value_of_standsFor (document : Node) {scalar : Yaml} {node : Node} (depth : Nat)
    (stands : node.standsFor scalar = true) : value document depth node = pure scalar := by
  obtain ⟨anchor, style, text, rfl, cases⟩ := standsFor_cases stands
  rw [value_scalar]
  rcases cases with ⟨rfl, -, resolves⟩ | ⟨quoted, rfl⟩
  · change required _ (resolve? text) = _
    rw [resolves]
    rfl
  · simp [ownTag?, Read.scalar, quoted]

/-- A tag of the document's own is put around what the node is read as without it. -/
theorem value_of_ownTag (document : Node) {own : String} (depth : Nat) {node : Node}
    (tag : ownTag? node.tag? = some own) :
    value document depth node =
      value document depth node.untagged >>= fun content => pure (.tagged own content) := by
  have untagged : ownTag? none = none := rfl
  cases node with
  | scalar anchor written style text =>
      have shown : ownTag? written = some own := tag
      rw [Node.untagged, value_scalar, value_scalar, shown, untagged]
      by_cases bare : style = .plain <;> simp [Read.scalar, bare]
  | sequence anchor written items =>
      have shown : ownTag? written = some own := tag
      cases depth with
      | zero =>
          rw [value, value]
          rfl
      | succ depth =>
          rw [Node.untagged, value_sequence, value_sequence]
          simp [value.wrap, shown, untagged]
  | mapping anchor written entries =>
      have shown : ownTag? written = some own := tag
      cases depth with
      | zero =>
          rw [value, value]
          rfl
      | succ depth =>
          rw [Node.untagged, value_mapping, value_mapping, bind_assoc]
          refine bind_congr fun read => ?_
          split
          · simp [value.wrap, shown, untagged]
          · rfl
  | _ => nomatch tag

mutual

theorem value_of_represented (document : Node) (value : Yaml) {depth : Nat} {node : Node}
    (holds : represented value depth node = true) :
    Read.value document depth node = pure value := by
  cases value with
  | sequence items =>
      obtain ⟨inner, anchor, nodes, rfl, rfl, each⟩ := represented_sequence holds
      rw [value_sequence, items_of_represented document items each, pure_bind]
      rfl
  | mapping entries =>
      obtain ⟨inner, anchor, nodes, rfl, rfl, distinct, each⟩ := represented_mapping holds
      rw [value_mapping, entries_of_represented document entries each, pure_bind, if_pos distinct]
      rfl
  | tagged own content =>
      rw [represented] at holds
      obtain ⟨tag, inside⟩ := Bool.and_eq_true_iff.1 holds
      rw [value_of_ownTag document depth (eq_of_beq tag),
        value_of_represented document content inside, pure_bind]
  | null => exact value_of_standsFor document depth holds
  | boolean => exact value_of_standsFor document depth holds
  | integer => exact value_of_standsFor document depth holds
  | binary => exact value_of_standsFor document depth holds
  | string => exact value_of_standsFor document depth holds

theorem items_of_represented (document : Node) (items : List Yaml) {depth : Nat}
    {nodes : List Node} (holds : representedItems items depth nodes = true) :
    nodes.mapM (Read.value document depth) = pure items := by
  cases items with
  | nil =>
      cases nodes with
      | nil => rfl
      | cons node rest => nomatch holds
  | cons item others =>
      cases nodes with
      | nil => nomatch holds
      | cons node rest =>
          rw [representedItems] at holds
          obtain ⟨first, later⟩ := Bool.and_eq_true_iff.1 holds
          rw [List.mapM_cons, value_of_represented document item first, pure_bind,
            items_of_represented document others later, pure_bind]

/-- Nodes that represent the entries of a mapping are read as them. -/
theorem entries_of_represented (document : Node) (entries : List (Yaml × Yaml)) {depth : Nat}
    {nodes : List (Node × Node)} (holds : representedEntries entries depth nodes = true) :
    (nodes.mapM fun entry => do
      let key ← Read.value document depth entry.1
      let content ← Read.value document depth entry.2
      return (key, content)) = pure entries := by
  cases entries with
  | nil =>
      cases nodes with
      | nil => rfl
      | cons node rest => nomatch holds
  | cons entry others =>
      cases nodes with
      | nil => nomatch holds
      | cons node rest =>
          rw [representedEntries] at holds
          obtain ⟨here, later⟩ := Bool.and_eq_true_iff.1 holds
          obtain ⟨first, second⟩ := Bool.and_eq_true_iff.1 here
          simp only [List.mapM_cons, value_of_represented document entry.1 first,
            value_of_represented document entry.2 second, pure_bind,
            entries_of_represented document others later]

end

end Read

/-- The reader and the writer are inverse at a value when the text that is written for it has a
document that represents it. -/
def ReadsBack (value : Yaml) : Prop :=
  ∃ document, Node.parse value.write = .ok (some document) ∧
    represented value Read.depthLimit document = true

/-- The text of such a value is read as the value. -/
theorem ReadsBack.parse_write {value : Yaml} (readsBack : value.ReadsBack) :
    parse value.write = .ok value := by
  obtain ⟨document, parsed, holds⟩ := readsBack
  rw [parse, parsed]
  change Read.run document (Read.value document Read.depthLimit document) = _
  rw [Read.value_of_represented document value holds]
  rfl

end WorkflowBundle.Yaml
