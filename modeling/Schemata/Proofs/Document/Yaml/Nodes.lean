import Schemata.Document.Yaml.Reader
import Schemata.Proofs.Document.Spelling
import Schemata.Proofs.Document.Yaml.Values

/-!
# Reading written nodes

The tokens of a value are read as its tree, `value_takes`, and the tokens after them are left alone.
-/

namespace Schemata.Yaml

/-- A scalar that is written plain. -/
def plainLeaf (text : String) : Leaf :=
  .scalar { text, style := .plain }

/-- What a reader makes of written scalars. -/
def spelling : Spelling Leaf where
  null := plainLeaf "null"
  flag value := plainLeaf (if value then "true" else "false")
  text content := .scalar { text := content, style := (Writing.of content.toList).style }
  key := plainLeaf

namespace Node

variable {shape : Shape} {fuel : Nat} {place : Place} {tokens more : List Token}

/-- A reader makes a tree of some tokens and stops before the others. -/
def Takes (read : Reading → Tree Leaf shape × Reading) (tokens more : List Token)
    (tree : Tree Leaf shape) : Prop :=
  ∀ r : Reading, r.tokens = tokens ++ more →
    ∃ size, read r = (tree, { r with tokens := more, size })

/-- A list whose dashes are not indented ends before these tokens. -/
def EndsItems (more : List Token) : Prop :=
  ∃ token rest, more = token :: rest ∧ token ≠ .blockEntry

theorem scalar_takes (fuel : Nat) (place : Place) (text : String) (style : Style)
    (more : List Token) :
    Takes (read (fuel + 1) place) [.scalar text style] more (.leaf (.scalar { text, style })) := by
  rintro ⟨tokens, handles, names, started, marked, size⟩ rfl
  exact ⟨size + 1, rfl⟩

/-- A node that is not left out is read as it is. -/
theorem Takes.present {ends : Token → Bool} {token : Token} {tree : Node}
    (h : Takes (read fuel place) (token :: tokens) more tree) (hends : ends token = false) :
    Takes (readUnless (fuel + 1) ends place) (token :: tokens) more tree := by
  intro r hr
  obtain ⟨size, hread⟩ := h r hr
  have hpeek : r.peek = some token := by simp [Reading.peek, hr]
  refine ⟨size, ?_⟩
  simpa [readUnless, hpeek, hends] using hread

/-- The members of an object are read between the start and the end of a block. -/
theorem Takes.object {tree : Tree Leaf .members} (hplace : place ≠ .flow)
    (h : Takes (blockMembers fuel) (tokens ++ [.blockEnd]) more tree) :
    Takes (read (fuel + 1) place) (.blockMappingStart :: (tokens ++ [.blockEnd])) more
      (.object tree) := by
  rintro ⟨all, handles, names, started, marked, size⟩ rfl
  obtain ⟨size', hread⟩ :=
    h ⟨tokens ++ [.blockEnd] ++ more, handles, names, started, marked, size + 1⟩ rfl
  refine ⟨size', ?_⟩
  rw [read]
  simp only [Reading.peek, List.cons_append, List.head?_cons, Properties.read, Properties.fullTag?,
    numbered, mark, Reading.next, Reading.count, List.tail_cons, hread]
  simp [hplace]

/-- The items of a list are read up to the first token that is none of theirs. -/
theorem Takes.list {tree : Tree Leaf .items}
    (h : Takes (indentless fuel) (.blockEntry :: tokens) more tree) :
    Takes (read (fuel + 1) .value) (.blockEntry :: tokens) more (.list tree) := by
  rintro ⟨all, handles, names, started, marked, size⟩ rfl
  obtain ⟨size', hread⟩ :=
    h ⟨.blockEntry :: tokens ++ more, handles, names, started, marked, size + 1⟩ rfl
  refine ⟨size', ?_⟩
  rw [read]
  simp only [Reading.peek, List.cons_append, List.head?_cons, Properties.read, Properties.fullTag?,
    numbered, mark, Reading.count] at hread ⊢
  rw [hread]

/-- A member is a key, a value and the members after it. -/
theorem Takes.member {key : String} {token : Token} {value : Node} {others : List Token}
    {rest : Tree Leaf .members}
    (hvalue : Takes (read (fuel + 1) .value) (token :: tokens) (others ++ more) value)
    (hends : endsMember token = false)
    (hrest : Takes (blockMembers (fuel + 2)) others more rest) :
    Takes (blockMembers (fuel + 3))
      (.key :: .scalar key .plain :: .value :: (token :: tokens ++ others)) more
      (.member (.leaf (spelling.key key)) value rest) := by
  rintro ⟨all, handles, names, started, marked, size⟩ rfl
  have hname : Takes (readUnless (fuel + 2) endsMember .value) [.scalar key .plain]
      (.value :: (token :: tokens ++ (others ++ more))) _ :=
    (scalar_takes fuel .value key .plain _).present rfl
  obtain ⟨size₁, hname⟩ := hname ⟨_, handles, names, started, marked, size⟩ rfl
  obtain ⟨size₂, hvalue⟩ := hvalue.present hends
    ⟨token :: tokens ++ (others ++ more), handles, names, started, marked, size₁⟩ rfl
  obtain ⟨size₃, hrest⟩ := hrest ⟨others ++ more, handles, names, started, marked, size₂⟩ rfl
  refine ⟨size₃, ?_⟩
  rw [blockMembers]
  simp only [Reading.peek, List.cons_append, List.append_assoc, List.nil_append, List.head?_cons,
    Reading.next, List.tail_cons] at hname hvalue hrest ⊢
  simp only [hname, List.head?_cons, List.tail_cons, hvalue, hrest]
  rfl

/-- An item is a dash, a node and the items after it. -/
theorem Takes.item {token : Token} {head : Node} {others : List Token} {rest : Tree Leaf .items}
    (hitem : Takes (read fuel .block) (token :: tokens) (others ++ more) head)
    (hends : (token == .blockEntry || endsMember token) = false)
    (hrest : Takes (indentless (fuel + 1)) others more rest) :
    Takes (indentless (fuel + 2)) (.blockEntry :: (token :: tokens ++ others)) more
      (.item head rest) := by
  rintro ⟨all, handles, names, started, marked, size⟩ rfl
  have hhead : Takes (readUnless (fuel + 1)
      (fun token => token == .blockEntry || endsMember token) .block) _ _ _ := hitem.present hends
  obtain ⟨size₁, hitem⟩ := hhead
    ⟨token :: tokens ++ (others ++ more), handles, names, started, marked, size⟩ rfl
  obtain ⟨size₂, hrest⟩ := hrest ⟨others ++ more, handles, names, started, marked, size₁⟩ rfl
  refine ⟨size₂, ?_⟩
  rw [indentless]
  simp only [Reading.peek, List.cons_append, List.append_assoc, List.head?_cons, Reading.next,
    List.tail_cons] at hitem hrest ⊢
  simp only [hitem, hrest]

theorem no_members_take (fuel : Nat) (more : List Token) :
    Takes (blockMembers (fuel + 1)) [.blockEnd] more .noMembers := by
  rintro ⟨tokens, handles, names, started, marked, size⟩ rfl
  exact ⟨size + 1, rfl⟩

theorem no_items_take (fuel : Nat) (hmore : EndsItems more) :
    Takes (indentless (fuel + 1)) [] more .noItems := by
  obtain ⟨token, rest, rfl, htoken⟩ := hmore
  rintro ⟨tokens, handles, names, started, marked, size⟩ rfl
  refine ⟨size + 1, ?_⟩
  rw [indentless]
  cases token <;> first | exact absurd rfl htoken | rfl

/-- No value is taken as left out. -/
theorem value_tokens_cons {value : Value} (h : Outlined value) :
    ∃ token tokens, valueTokens value = token :: tokens ∧ endsMember token = false := by
  cases h with
  | null => exact ⟨_, _, by rw [valueTokens], rfl⟩
  | flag value => exact ⟨_, _, by rw [valueTokens], rfl⟩
  | text content => exact ⟨_, _, by rw [valueTokens], rfl⟩
  | list hitems =>
      cases hitems with
      | nil => exact ⟨_, _, by rw [valueTokens], rfl⟩
      | cons hmembers hrest => exact ⟨_, _, by rw [valueTokens, itemTokens], rfl⟩
  | object hmembers =>
      cases hmembers with
      | nil => exact ⟨_, _, by rw [valueTokens], rfl⟩
      | cons hkey hvalue hothers => exact ⟨_, _, by rw [valueTokens], rfl⟩

/-- After a member stands a further key or the end of the block, so no list goes on. -/
theorem ends_items_members (members : List (String × Value)) (more : List Token) :
    EndsItems (memberTokens members ++ [.blockEnd] ++ more) := by
  cases members with
  | nil => exact ⟨.blockEnd, _, rfl, nofun⟩
  | cons first others => exact ⟨.key, _, by rw [memberTokens]; rfl, nofun⟩

mutual

/-- The tokens of a value are read as its tree. -/
theorem value_takes {value : Value} (h : Outlined value) {fuel : Nat}
    (hfuel : 3 * (valueTokens value).length + 2 ≤ fuel) {more : List Token}
    (hmore : EndsItems more) :
    Takes (read fuel .value) (valueTokens value) more (value.tree spelling) := by
  obtain ⟨fuel, rfl⟩ := Nat.exists_eq_add_of_le' (show 1 ≤ fuel by omega)
  cases h with
  | null =>
      rw [valueTokens]
      exact scalar_takes fuel .value "null" .plain more
  | flag value =>
      rw [valueTokens]
      exact scalar_takes fuel .value _ .plain more
  | text content =>
      rw [valueTokens]
      exact scalar_takes fuel .value content _ more
  | list hitems =>
      rename_i items
      cases items with
      | nil =>
          rw [valueTokens] at hfuel ⊢
          simp only [List.length_cons, List.length_nil] at hfuel
          obtain ⟨fuel, rfl⟩ := Nat.exists_eq_add_of_le' (show 2 ≤ fuel by omega)
          rintro ⟨tokens, handles, names, started, marked, size⟩ rfl
          exact ⟨size + 2, rfl⟩
      | cons first rest =>
          rw [valueTokens] at hfuel ⊢
          have hall := items_take hitems (by omega : _ ≤ fuel) hmore
          rw [itemTokens] at hall ⊢
          exact hall.list
  | object hmembers =>
      rename_i members
      cases members with
      | nil =>
          rw [valueTokens] at hfuel ⊢
          simp only [List.length_cons, List.length_nil] at hfuel
          obtain ⟨fuel, rfl⟩ := Nat.exists_eq_add_of_le' (show 2 ≤ fuel by omega)
          rintro ⟨tokens, handles, names, started, marked, size⟩ rfl
          exact ⟨size + 2, rfl⟩
      | cons first rest =>
          rw [valueTokens] at hfuel ⊢
          simp only [List.length_cons, List.length_append] at hfuel
          exact (members_take hmembers (by omega) more).object nofun

/-- The tokens of items are read as their trees. -/
theorem items_take {items : List Value} (h : OutlinedItems items) {fuel : Nat}
    (hfuel : 3 * (itemTokens items).length + 1 ≤ fuel) {more : List Token}
    (hmore : EndsItems more) :
    Takes (indentless fuel) (itemTokens items) more (Value.itemTrees spelling items) := by
  cases h with
  | nil =>
      obtain ⟨fuel, rfl⟩ := Nat.exists_eq_add_of_le' (show 1 ≤ fuel by omega)
      exact no_items_take fuel hmore
  | cons hmembers hitems =>
      rw [itemTokens, valueTokens] at hfuel ⊢
      simp only [List.length_cons, List.length_append] at hfuel
      obtain ⟨fuel, rfl⟩ := Nat.exists_eq_add_of_le' (show 3 ≤ fuel by omega)
      rename_i first others rest
      have hrest := items_take hitems (by omega : _ ≤ fuel + 2) hmore
      have hmembers := members_take hmembers (by omega : _ ≤ fuel) (itemTokens rest ++ more)
      exact Takes.item (hmembers.object nofun) rfl hrest

/-- The tokens of members are read as their trees. -/
theorem members_take {members : List (String × Value)} (h : OutlinedMembers members) {fuel : Nat}
    (hfuel : 3 * (memberTokens members).length + 1 ≤ fuel) (more : List Token) :
    Takes (blockMembers fuel) (memberTokens members ++ [.blockEnd]) more
      (Value.memberTrees spelling members) := by
  cases h with
  | nil =>
      obtain ⟨fuel, rfl⟩ := Nat.exists_eq_add_of_le' (show 1 ≤ fuel by omega)
      exact no_members_take fuel more
  | cons hkey hvalue hothers =>
      rename_i key value others
      rw [memberTokens] at hfuel ⊢
      simp only [List.length_cons, List.length_append] at hfuel
      obtain ⟨fuel, rfl⟩ := Nat.exists_eq_add_of_le' (show 3 ≤ fuel by omega)
      have hrest := members_take hothers (by omega : _ ≤ fuel + 2) more
      -- a list in the value ends where the next key or the end of the block stands
      have hcontent := value_takes hvalue (by omega : _ ≤ fuel + 1) (ends_items_members others more)
      obtain ⟨token, tokens, htokens, hends⟩ := value_tokens_cons hvalue
      rw [htokens] at hcontent ⊢
      simpa [Value.memberTrees] using Takes.member hcontent hends hrest

end

end Node

end Schemata.Yaml
