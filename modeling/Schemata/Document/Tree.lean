/-!
# Document trees

What a reader makes of a text before anyone asks what the document means. A reader stops at the
first fault and puts it into the tree as the last leaf, so that whoever walks the tree in document
order meets a wrong shape and a fault in the order in which they stand in the text.
-/

namespace Schemata

/-- What a part of a tree stands for. -/
inductive Shape where
  | value
  | items
  | members

/-- A document over scalars `σ`: single values, runs of list items, runs of object members. -/
inductive Tree (σ : Type) : Shape → Type where
  | leaf (scalar : σ) : Tree σ .value
  /-- A reference to a value that the reader numbered. -/
  | reference (anchor : Nat) : Tree σ .value
  | list (items : Tree σ .items) : Tree σ .value
  | object (members : Tree σ .members) : Tree σ .value
  | noItems : Tree σ .items
  | item (head : Tree σ .value) (rest : Tree σ .items) : Tree σ .items
  | noMembers : Tree σ .members
  | member (key value : Tree σ .value) (rest : Tree σ .members) : Tree σ .members

namespace Tree

variable {σ φ : Type}

/-- The first fault that some leaf shows, in document order. References are not followed. -/
def fault? (show? : σ → Option φ) : {shape : Shape} → Tree σ shape → Option φ
  | _, leaf scalar => show? scalar
  | _, reference _ => none
  | _, list items => items.fault? show?
  | _, object members => members.fault? show?
  | _, noItems => none
  | _, item head rest => (head.fault? show?).or (rest.fault? show?)
  | _, noMembers => none
  | _, member key value rest =>
    (key.fault? show?).or ((value.fault? show?).or (rest.fault? show?))

end Tree

end Schemata
