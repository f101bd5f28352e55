import Mathlib
import Schemata.Document.Json.Decoding
import Schemata.Proofs.Document.Records
import Schemata.Proofs.Document.Spelling
import Schemata.Proofs.Pipeline.Options

/-!
# Decoding trees that mean the same

JSON has no references, so what a decoder makes of a tree does not depend on where the tree stands:
it fails everywhere, or gives one value. `Agree` compares two decodings in this respect, and a
decoder respects a relation between trees when related trees agree, `Decoder.Respects`. The main
statements are that the decoders of texts and lists respect what may be written in different ways.
-/

namespace Schemata

namespace Decoding

variable {φ α β γ δ : Type}

/-- Whether a decoding stops at an issue, whatever was counted before. -/
def Fails (decoding : Decoding φ α) : Prop :=
  ∀ count, ∃ issue, decoding count = .error issue

theorem fails_fail (path : Path) (cause : Cause φ) : Fails (fail path cause : Decoding φ α) :=
  fun _ => ⟨_, rfl⟩

theorem Fails.bind {decoding : Decoding φ α} (h : Fails decoding) (next : α → Decoding φ β) :
    Fails (decoding >>= next) := by
  intro count
  obtain ⟨issue, hissue⟩ := h count
  refine ⟨issue, ?_⟩
  show Except.bind (decoding count) _ = _
  rw [hissue]
  rfl

theorem fails_bind (decoding : Decoding φ α) {next : α → Decoding φ β} (h : ∀ value, Fails (next value)) :
    Fails (decoding >>= next) := by
  intro count
  cases hfirst : decoding count with
  | error issue =>
      refine ⟨issue, ?_⟩
      show Except.bind (decoding count) _ = _
      rw [hfirst]
      rfl
  | ok reached =>
      obtain ⟨issue, hissue⟩ := h reached.1 reached.2
      refine ⟨issue, ?_⟩
      show Except.bind (decoding count) _ = _
      rw [hfirst]
      exact hissue

theorem pure_inj {value other : α} (h : (pure value : Decoding φ α) = pure other) : value = other := by
  have hstart := congrFun h 0
  cases hstart
  rfl

theorem not_fails_pure (value : α) : ¬ Fails (pure value : Decoding φ α) := by
  intro h
  obtain ⟨issue, hissue⟩ := h 0
  cases hissue

/-- Whether two decodings, given for every place, fail everywhere or give related values
everywhere. -/
inductive Agree (related : α → β → Prop) (decoding : Path → Decoding φ α)
    (other : Path → Decoding φ β) : Prop where
  | values {value : α} {otherValue : β} (hvalue : ∀ path, decoding path = pure value)
      (hother : ∀ path, other path = pure otherValue) (hrelated : related value otherValue)
  | issues (hissue : ∀ path, Fails (decoding path)) (hother : ∀ path, Fails (other path))

namespace Agree

variable {related : α → β → Prop} {decoding : Path → Decoding φ α} {other : Path → Decoding φ β}

theorem pure {value : α} {otherValue : β} (h : related value otherValue) :
    Agree related (fun _ => (Pure.pure value : Decoding φ α))
      (fun _ => (Pure.pure otherValue : Decoding φ β)) :=
  .values (fun _ => rfl) (fun _ => rfl) h

theorem fail (place otherPlace : Path → Path) (cause otherCause : Cause φ) :
    Agree related (fun path => Decoding.fail (place path) cause)
      (fun path => Decoding.fail (otherPlace path) otherCause) :=
  .issues (fun _ => fails_fail _ _) (fun _ => fails_fail _ _)

/-- Places do not matter, so they may be moved. -/
theorem move (h : Agree related decoding other) (place otherPlace : Path → Path) :
    Agree related (fun path => decoding (place path)) (fun path => other (otherPlace path)) := by
  cases h with
  | values hvalue hother hrelated =>
      exact .values (fun path => hvalue (place path)) (fun path => hother (otherPlace path)) hrelated
  | issues hissue hother =>
      exact .issues (fun path => hissue (place path)) (fun path => hother (otherPlace path))

theorem bind {next : Path → α → Decoding φ γ} {otherNext : Path → β → Decoding φ δ}
    {after : γ → δ → Prop} (h : Agree related decoding other)
    (hnext : ∀ value otherValue, related value otherValue →
      Agree after (fun path => next path value) (fun path => otherNext path otherValue)) :
    Agree after (fun path => decoding path >>= next path)
      (fun path => other path >>= otherNext path) := by
  cases h with
  | values hvalue hother hrelated =>
      simpa only [hvalue, hother, pure_bind] using hnext _ _ hrelated
  | issues hissue hother =>
      exact .issues (fun path => (hissue path).bind _) (fun path => (hother path).bind _)

theorem map {f : α → γ} {g : β → δ} {after : γ → δ → Prop} (h : Agree related decoding other)
    (hmap : ∀ value otherValue, related value otherValue → after (f value) (g otherValue)) :
    Agree after (fun path => f <$> decoding path) (fun path => g <$> other path) := by
  simp only [map_eq_pure_bind]
  exact h.bind fun value otherValue hrelated => .pure (hmap value otherValue hrelated)

theorem trans {between : β → γ → Prop} {third : Path → Decoding φ γ}
    {across : α → γ → Prop} (h : Agree related decoding other) (hnext : Agree between other third)
    (hacross : ∀ a b c, related a b → between b c → across a c) :
    Agree across decoding third := by
  -- the decoding in the middle cannot give a value and fail
  cases h with
  | values hvalue hother hrelated =>
      cases hnext with
      | values hsame hthird hbetween =>
          obtain rfl := pure_inj ((hother []).symm.trans (hsame []))
          exact .values hvalue hthird (hacross _ _ _ hrelated hbetween)
      | issues hissue hthird =>
          exact absurd (hother [] ▸ hissue []) (not_fails_pure _)
  | issues hissue hother =>
      cases hnext with
      | values hsame hthird hbetween => exact absurd (hsame [] ▸ hother []) (not_fails_pure _)
      | issues _ hthird => exact .issues hissue hthird

end Agree

end Decoding

namespace Json

open Decoding (Agree Fails)

variable {α β ρ : Type}

/-- How JSON is decoded: there is nothing to refer to. -/
def scope : Scope Leaf Fault := { dialect, anchor? := fun _ => none, limit := 0 }

/-- Scalars that mean the same: the same one, or two texts that mean nothing. -/
inductive Leaf.Alike : Leaf → Leaf → Prop where
  | same (scalar : Leaf) : Alike scalar scalar
  | meaningless (fault other : Fault) : Alike (.text (.error fault)) (.text (.error other))

/-- Trees of one shape over scalars that mean the same. -/
inductive Alike : {shape : Shape} → Tree Leaf shape → Tree Leaf shape → Prop where
  | leaf {scalar other : Leaf} (h : scalar.Alike other) : Alike (.leaf scalar) (.leaf other)
  | reference (anchor : Nat) : Alike (.reference anchor) (.reference anchor)
  | list {items others : Tree Leaf .items} (h : Alike items others) :
      Alike (.list items) (.list others)
  | object {members others : Tree Leaf .members} (h : Alike members others) :
      Alike (.object members) (.object others)
  | noItems : Alike .noItems .noItems
  | item {head otherHead : Tree Leaf .value} {rest others : Tree Leaf .items}
      (hhead : Alike head otherHead) (hrest : Alike rest others) :
      Alike (.item head rest) (.item otherHead others)
  | noMembers : Alike .noMembers .noMembers
  | member {key otherKey value otherValue : Tree Leaf .value} {rest others : Tree Leaf .members}
      (hkey : Alike key otherKey) (hvalue : Alike value otherValue) (hrest : Alike rest others) :
      Alike (.member key value rest) (.member otherKey otherValue others)

theorem Alike.refl {shape : Shape} (tree : Tree Leaf shape) : Alike tree tree := by
  induction tree with
  | leaf scalar => exact .leaf (.same scalar)
  | reference anchor => exact .reference anchor
  | list items ih => exact .list ih
  | object members ih => exact .object ih
  | noItems => exact .noItems
  | item head rest hhead hrest => exact .item hhead hrest
  | noMembers => exact .noMembers
  | member key value rest hkey hvalue hrest => exact .member hkey hvalue hrest

/-- Whether a decoder makes related values of trees that are alike, or refuses both. -/
def Respects (decode : Decoder Leaf Fault α) (alike : Tree Leaf .value → Tree Leaf .value → Prop)
    (related : α → α → Prop) : Prop :=
  ∀ ⦃tree other⦄, alike tree other →
    Agree related (fun path => decode scope path tree) (fun path => decode scope path other)

theorem fails_follow (path : Path) (anchor : Nat) : Fails (scope.follow path (.reference anchor)) := by
  intro count
  exact ⟨{ path, cause := .repetition }, by simp [Scope.follow, scope]⟩

/-- Answers of the dialect agree when they hold the same value. -/
theorem agree_of_except {answer other : Except (Cause Fault) α} (place otherPlace : Path → Path)
    (h : answer.toOption = other.toOption) :
    Agree (· = ·) (fun path => Decoding.ofExcept (place path) answer)
      (fun path => Decoding.ofExcept (otherPlace path) other) := by
  cases answer with
  | error cause =>
      cases other with
      | error otherCause => exact .fail place otherPlace cause otherCause
      | ok value => cases h
  | ok value =>
      cases other with
      | error cause => cases h
      | ok otherValue =>
          cases h
          exact .pure rfl

/-- Decoders look at trees that are alike in the same way: both are scalars, or lists, or objects. -/
theorem agree_follow {decode : Path → Tree Leaf .value → Decoding Fault α} {related : α → α → Prop}
    {tree other : Tree Leaf .value} (h : Alike tree other)
    (hleaf : ∀ scalar otherScalar : Leaf, scalar.Alike otherScalar →
      Agree related (fun path => decode path (.leaf scalar))
        (fun path => decode path (.leaf otherScalar)))
    (hlist : ∀ items others, tree = .list items →
      Agree related (fun path => decode path (.list items)) (fun path => decode path (.list others)))
    (hobject : ∀ members others, tree = .object members →
      Agree related (fun path => decode path (.object members))
        (fun path => decode path (.object others))) :
    Agree related (fun path => scope.follow path tree >>= decode path)
      (fun path => scope.follow path other >>= decode path) := by
  cases h with
  | leaf h => simpa only [Scope.follow_leaf, pure_bind] using hleaf _ _ h
  | reference anchor =>
      exact .issues (fun path => (fails_follow path anchor).bind _)
        (fun path => (fails_follow path anchor).bind _)
  | list h => simpa only [Scope.follow_list, pure_bind] using hlist _ _ rfl
  | object h => simpa only [Scope.follow_object, pure_bind] using hobject _ _ rfl

theorem Leaf.Alike.text {scalar other : Leaf} (h : scalar.Alike other) (expected : String) :
    (dialect.text expected scalar).toOption = (dialect.text expected other).toOption := by
  cases h with
  | same => rfl
  | meaningless => rfl

theorem respects_text_as (expected : String) :
    Respects (Decoder.textAs expected) (fun tree other => Alike tree other) (· = ·) := by
  intro tree other h
  unfold Decoder.textAs
  exact agree_follow h (fun _ _ h => agree_of_except id id (h.text expected))
    (fun _ _ _ => .fail id id _ _) (fun _ _ _ => .fail id id _ _)

@[simp] theorem respects_text : Respects Decoder.text (fun tree other => Alike tree other) (· = ·) :=
  respects_text_as "a string"

@[simp] theorem respects_optional_text :
    Respects Decoder.optionalText (fun tree other => Alike tree other) (· = ·) := by
  intro tree other h
  unfold Decoder.optionalText
  refine agree_follow h ?_ (fun _ _ _ => .fail id id _ _) (fun _ _ _ => .fail id id _ _)
  intro scalar otherScalar h
  have habsent : (dialect.absent scalar).toOption = (dialect.absent otherScalar).toOption := by
    cases h <;> rfl
  refine (agree_of_except List.tail List.tail habsent).bind ?_
  rintro absent _ rfl
  cases absent with
  | true => exact .pure rfl
  | false =>
      exact (agree_of_except id id (h.text "a string")).map fun text _ heq => congrArg some heq

@[simp] theorem respects_flag : Respects Decoder.flag (fun tree other => Alike tree other) (· = ·) := by
  intro tree other h
  unfold Decoder.flag
  refine agree_follow h (fun _ _ h => agree_of_except id id ?_) (fun _ _ _ => .fail id id _ _)
    (fun _ _ _ => .fail id id _ _)
  cases h <;> rfl

/-- Items that are alike one by one, in a sense of their own. -/
inductive ItemsAlike (alike : Tree Leaf .value → Tree Leaf .value → Prop) :
    Tree Leaf .items → Tree Leaf .items → Prop where
  | nil : ItemsAlike alike .noItems .noItems
  | cons {head otherHead : Tree Leaf .value} {rest others : Tree Leaf .items}
      (hhead : alike head otherHead) (hrest : ItemsAlike alike rest others) :
      ItemsAlike alike (.item head rest) (.item otherHead others)

/-- Lists whose items are alike in a sense of their own. What is no list may only be written in
another way. -/
inductive ListAlike (alike : Tree Leaf .value → Tree Leaf .value → Prop) :
    Tree Leaf .value → Tree Leaf .value → Prop where
  | list {items others : Tree Leaf .items} (h : ItemsAlike alike items others) :
      ListAlike alike (.list items) (.list others)
  | other {tree other : Tree Leaf .value} (h : Alike tree other) (hlist : ∀ items, tree ≠ .list items) :
      ListAlike alike tree other

theorem ItemsAlike.refl {alike : Tree Leaf .value → Tree Leaf .value → Prop}
    (h : ∀ tree, alike tree tree) : (items : Tree Leaf .items) → ItemsAlike alike items items
  | .noItems => .nil
  | .item head rest => .cons (h head) (ItemsAlike.refl h rest)

theorem ListAlike.refl {alike : Tree Leaf .value → Tree Leaf .value → Prop}
    (h : ∀ tree, alike tree tree) : (tree : Tree Leaf .value) → ListAlike alike tree tree
  | .list items => .list (.refl h items)
  | .leaf scalar => .other (.refl _) (by simp)
  | .reference anchor => .other (.refl _) (by simp)
  | .object members => .other (.refl _) (by simp)

section Lists

variable {decode : Decoder Leaf Fault α} {alike : Tree Leaf .value → Tree Leaf .value → Prop}

theorem agree_items (h : Respects decode alike (· = ·)) {items others : Tree Leaf .items}
    (hitems : ItemsAlike alike items others) (position : Nat) :
    Agree (· = ·) (fun path => Decoder.items decode scope path position items)
      (fun path => Decoder.items decode scope path position others) := by
  induction hitems generalizing position with
  | nil =>
      simp only [Decoder.items]
      exact .pure rfl
  | cons hhead hrest ih =>
      simp only [Decoder.items]
      refine ((h hhead).move (.index position :: ·) (.index position :: ·)).bind ?_
      rintro first _ rfl
      refine (ih (position + 1)).bind ?_
      rintro all _ rfl
      exact .pure rfl

/-- A list is decoded item by item, so it may be written as its items may. -/
@[simp] theorem respects_list (h : Respects decode alike (· = ·)) :
    Respects (Decoder.list decode) (ListAlike alike) (· = ·) := by
  intro tree other htree
  cases htree with
  | list hitems =>
      simp only [Decoder.list, Scope.follow_list, pure_bind]
      exact agree_items h hitems 0
  | other halike hlist =>
      unfold Decoder.list
      exact agree_follow halike (fun _ _ _ => .fail id id _ _)
        (fun items _ htree => absurd htree (hlist items)) (fun _ _ _ => .fail id id _ _)

end Lists

/-- The text that a tree stands for, if it stands for one. -/
def textOf? : Tree Leaf .value → Option String
  | .leaf (.text (.ok content)) => some content
  | _ => none

theorem text_as_eq {tree : Tree Leaf .value} {content : String} (h : textOf? tree = some content)
    (expected : String) (path : Path) :
    Decoder.textAs expected scope path tree = pure content := by
  unfold textOf? at h
  split at h
  · cases h
    exact Decoder.text_as_leaf rfl path
  · cases h

theorem fails_text_as {tree : Tree Leaf .value} (h : textOf? tree = none) (expected : String)
    (path : Path) : Fails (Decoder.textAs expected scope path tree) := by
  unfold Decoder.textAs
  cases tree with
  | leaf scalar =>
      have hrefused : ∃ cause, dialect.text expected scalar = .error cause := by
        cases scalar with
        | text content =>
            cases content with
            | ok content => cases h
            | error fault => exact ⟨_, rfl⟩
        | _ => exact ⟨_, rfl⟩
      obtain ⟨cause, hcause⟩ := hrefused
      have hanswer : Decoding.ofExcept path (scope.dialect.text expected scalar) =
          .fail path cause := by
        show Decoding.ofExcept path (dialect.text expected scalar) = _
        rw [hcause]
        rfl
      simp only [Scope.follow_leaf, pure_bind, hanswer]
      exact Decoding.fails_fail path cause
  | reference anchor => exact (fails_follow path anchor).bind _
  | list items => exact Decoding.fails_fail _ _
  | object members => exact Decoding.fails_fail _ _

theorem Alike.text_eq {tree other : Tree Leaf .value} (h : Alike tree other) :
    textOf? tree = textOf? other := by
  cases h with
  | leaf h => cases h <;> rfl
  | reference | list | object => rfl

/-- The members of a table of texts, written in other ways or in another order. Members of one name
keep their order. -/
inductive Reordered : Tree Leaf .members → Tree Leaf .members → Prop where
  | nil : Reordered .noMembers .noMembers
  | member {key otherKey value otherValue : Tree Leaf .value} {rest others : Tree Leaf .members}
      (hkey : Alike key otherKey) (hvalue : Alike value otherValue) (hrest : Reordered rest others) :
      Reordered (.member key value rest) (.member otherKey otherValue others)
  | swap {key otherKey : Tree Leaf .value} (value otherValue : Tree Leaf .value)
      (rest : Tree Leaf .members) (hnames : ∀ name, textOf? key = some name →
        textOf? otherKey ≠ some name) :
      Reordered (.member key value (.member otherKey otherValue rest))
        (.member otherKey otherValue (.member key value rest))
  | trans {members others more : Tree Leaf .members} (h : Reordered members others)
      (hnext : Reordered others more) : Reordered members more

theorem Reordered.refl : (members : Tree Leaf .members) → Reordered members members
  | .noMembers => .nil
  | .member key value rest => .member (.refl key) (.refl value) (.refl rest)

/-- The run of some members. -/
def membersOf : List (Tree Leaf .value × Tree Leaf .value) → Tree Leaf .members
  | [] => .noMembers
  | (key, value) :: rest => .member key value (membersOf rest)

/-- Members of different names may be written in any order. -/
theorem Reordered.of_perm {members others : List (Tree Leaf .value × Tree Leaf .value)}
    (h : members.Perm others)
    (hnames : members.Pairwise fun member other =>
      ∀ name, textOf? member.1 = some name → textOf? other.1 ≠ some name) :
    Reordered (membersOf members) (membersOf others) := by
  have hsymm {member other : Tree Leaf .value × Tree Leaf .value}
      (h : ∀ name, textOf? member.1 = some name → textOf? other.1 ≠ some name) :
      ∀ name, textOf? other.1 = some name → textOf? member.1 ≠ some name :=
    fun name hother hmember => h name hmember hother
  induction h with
  | nil => exact .nil
  | cons member h ih => exact .member (.refl _) (.refl _) (ih (List.pairwise_cons.1 hnames).2)
  | swap member other rest =>
      have hne := (List.pairwise_cons.1 hnames).1 member List.mem_cons_self
      exact .swap _ _ _ hne
  | trans h hnext ih ihnext => exact (ih hnames).trans (ihnext ((h.pairwise_iff hsymm).1 hnames))

/-- Tables of texts with reordered members. What is no table may only be written in another way. -/
inductive PairsAlike : Tree Leaf .value → Tree Leaf .value → Prop where
  | object {members others : Tree Leaf .members} (h : Reordered members others) :
      PairsAlike (.object members) (.object others)
  | other {tree other : Tree Leaf .value} (h : Alike tree other)
      (hobject : ∀ members, tree ≠ .object members) : PairsAlike tree other

theorem PairsAlike.refl : (tree : Tree Leaf .value) → PairsAlike tree tree
  | .object members => .object (.refl members)
  | .leaf scalar => .other (.refl _) (by simp)
  | .reference anchor => .other (.refl _) (by simp)
  | .list items => .other (.refl _) (by simp)

/-- Whether pairs have the same last value for every key. -/
def SameLast (pairs others : List (String × String)) : Prop :=
  ∀ key, Options.lastValue? pairs key = Options.lastValue? others key

theorem SameLast.options_eq {pairs others : List (String × String)} (h : SameLast pairs others) :
    Options.ofPairs pairs = Options.ofPairs others := by
  refine Options.ext_get? fun key => ?_
  rw [Options.ofPairs, Options.ofPairs, Options.get?_setAll, Options.get?_setAll, h key]

theorem SameLast.cons {pairs others : List (String × String)} (h : SameLast pairs others)
    (pair : String × String) : SameLast (pair :: pairs) (pair :: others) := by
  intro key
  rw [Options.lastValue?_cons, Options.lastValue?_cons, h key]

/-- Pairs of different keys may change places. -/
theorem SameLast.swap {pair other : String × String} (h : pair.1 ≠ other.1)
    (rest : List (String × String)) : SameLast (pair :: other :: rest) (other :: pair :: rest) := by
  intro key
  simp only [Options.lastValue?_cons, Option.or_assoc]
  congr 1
  by_cases hkey : key = pair.1
  · simp [hkey, h]
  · simp [hkey]

theorem agree_pairs_member {related : List (String × String) → List (String × String) → Prop}
    (hcons : ∀ pair pairs others, related pairs others → related (pair :: pairs) (pair :: others))
    {key otherKey value otherValue : Tree Leaf .value} {rest others : Tree Leaf .members}
    (hkey : Alike key otherKey) (hvalue : Alike value otherValue)
    (hrest : Agree related (fun path => Decoder.pairs scope path rest)
      (fun path => Decoder.pairs scope path others)) :
    Agree related (fun path => Decoder.pairs scope path (.member key value rest))
      (fun path => Decoder.pairs scope path (.member otherKey otherValue others)) := by
  simp only [Decoder.pairs]
  refine (respects_text hkey).bind ?_
  rintro name _ rfl
  refine ((respects_text hvalue).move (Decoder.stepTo name key :: ·)
    (Decoder.stepTo name otherKey :: ·)).bind ?_
  rintro content _ rfl
  refine hrest.bind fun pairs others h => ?_
  exact .pure (hcons (name, content) pairs others h)

theorem agree_pairs_refl (members : Tree Leaf .members) :
    Agree (· = ·) (fun path => Decoder.pairs scope path members)
      (fun path => Decoder.pairs scope path members) := by
  match members with
  | .noMembers =>
      simp only [Decoder.pairs]
      exact .pure rfl
  | .member key value rest =>
      exact agree_pairs_member (fun pair _ _ h => congrArg (pair :: ·) h) (.refl key) (.refl value)
        (agree_pairs_refl rest)

/-- Two members of different names may change places. -/
theorem agree_pairs_swap {key otherKey : Tree Leaf .value} (value otherValue : Tree Leaf .value)
    (rest : Tree Leaf .members)
    (hnames : ∀ name, textOf? key = some name → textOf? otherKey ≠ some name) :
    Agree SameLast
      (fun path => Decoder.pairs scope path (.member key value (.member otherKey otherValue rest)))
      (fun path => Decoder.pairs scope path
        (.member otherKey otherValue (.member key value rest))) := by
  have hfails {tree : Tree Leaf .value} (h : textOf? tree = none) (path : Path) :
      Fails (Decoder.text scope path tree) := fails_text_as h "a string" path
  have htext {tree : Tree Leaf .value} {content : String} (h : textOf? tree = some content)
      (path : Path) : Decoder.text scope path tree = pure content := text_as_eq h "a string" path
  simp only [Decoder.pairs]
  -- whichever of the four texts is missing, both orders come to it
  cases hkey : textOf? key with
  | none =>
      exact .issues (fun path => (hfails hkey path).bind _) fun path =>
        Decoding.fails_bind _ fun _ => Decoding.fails_bind _ fun _ => ((hfails hkey path).bind _).bind _
  | some name =>
  cases hotherKey : textOf? otherKey with
  | none =>
      exact .issues (fun path => Decoding.fails_bind _ fun _ => Decoding.fails_bind _ fun _ =>
        ((hfails hotherKey path).bind _).bind _) fun path => (hfails hotherKey path).bind _
  | some otherName =>
  cases hvalue : textOf? value with
  | none =>
      exact .issues (fun path => Decoding.fails_bind _ fun _ => (hfails hvalue _).bind _) fun path =>
        Decoding.fails_bind _ fun _ => Decoding.fails_bind _ fun _ =>
          (Decoding.fails_bind _ fun _ => (hfails hvalue _).bind _).bind _
  | some content =>
  cases hotherValue : textOf? otherValue with
  | none =>
      exact .issues (fun path => Decoding.fails_bind _ fun _ => Decoding.fails_bind _ fun _ =>
        (Decoding.fails_bind _ fun _ => (hfails hotherValue _).bind _).bind _) fun path =>
          Decoding.fails_bind _ fun _ => (hfails hotherValue _).bind _
  | some otherContent =>
      have hne : name ≠ otherName := fun heq => hnames name hkey (heq ▸ hotherKey)
      simp only [htext hkey, htext hotherKey, htext hvalue, htext hotherValue, pure_bind, bind_assoc]
      refine (agree_pairs_refl rest).bind ?_
      rintro pairs _ rfl
      exact .pure (SameLast.swap hne pairs)

theorem agree_pairs {members others : Tree Leaf .members} (h : Reordered members others) :
    Agree SameLast (fun path => Decoder.pairs scope path members)
      (fun path => Decoder.pairs scope path others) := by
  induction h with
  | nil =>
      simp only [Decoder.pairs]
      exact .pure fun _ => rfl
  | member hkey hvalue hrest ih =>
      exact agree_pairs_member (fun pair _ _ h => h.cons pair) hkey hvalue ih
  | swap value otherValue rest hnames => exact agree_pairs_swap value otherValue rest hnames
  | trans h hnext ih ihnext =>
      exact ih.trans ihnext fun _ _ _ hfirst hsecond key => (hfirst key).trans (hsecond key)

/-- A table of texts may be written in any order, as long as no key comes to another last value. -/
theorem respects_text_pairs : Respects Decoder.textPairs PairsAlike SameLast := by
  intro tree other htree
  cases htree with
  | object h =>
      simp only [Decoder.textPairs, Scope.follow_object, pure_bind]
      exact agree_pairs h
  | other halike hobject =>
      unfold Decoder.textPairs
      exact agree_follow halike (fun _ _ _ => .fail id id _ _) (fun _ _ _ => .fail id id _ _)
        (fun members _ htree => absurd htree (hobject members))

end Json

end Schemata
