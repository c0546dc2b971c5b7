import Mathlib.Data.Set.Function

/-!
# Forests of labelled nodes

A forest is a list of nodes, each with a label and a forest of children. Its digest
is computed from the last node to the first, one step a node, over the label, the
digest of the children and the digest of the nodes behind. Where the steps taken do
not collide and none gives the digest of the empty forest, the digest determines
the forest.
-/

namespace EthereumSettlement.LabelledForests

universe u v w

/-- A label over a forest of children. -/
inductive Node (α : Type u)
  | node (label : α) (children : List (Node α))

variable {α : Type u} {β : Type v} {γ : Type w}

mutual

/-- The forest of the same shape with every label mapped. -/
def mapLabels (f : α → β) : List (Node α) → List (Node β)
  | [] => []
  | node :: forest => mapNode f node :: mapLabels f forest

/-- The node of the same shape with every label mapped. -/
def mapNode (f : α → β) : Node α → Node β
  | .node label children => .node (f label) (mapLabels f children)

end

mutual

/-- The labels of a forest, a node's own before those of its children. -/
def labels : List (Node α) → List α
  | [] => []
  | node :: forest => nodeLabels node ++ labels forest

/-- The labels of a node and its children. -/
def nodeLabels : Node α → List α
  | .node label children => label :: labels children

end

/-- Maps compose. -/
theorem mapLabels_mapLabels (g : β → γ) (f : α → β) : ∀ forest : List (Node α),
    mapLabels g (mapLabels f forest) = mapLabels (g ∘ f) forest
  | [] => by simp only [mapLabels]
  | .node label children :: forest => by
    have hchildren := mapLabels_mapLabels g f children
    have hforest := mapLabels_mapLabels g f forest
    simp only [mapLabels, mapNode, hchildren, hforest, Function.comp_apply]

/-- Maps that agree on the labels of a forest give the same forest. -/
theorem mapLabels_congr {f g : α → β} : ∀ forest : List (Node α),
    (∀ label ∈ labels forest, f label = g label) → mapLabels f forest = mapLabels g forest
  | [], _ => by simp only [mapLabels]
  | .node label children :: forest, h => by
    simp only [labels, nodeLabels, List.mem_append, List.mem_cons] at h
    have hlabel := h label (Or.inl (Or.inl rfl))
    have hchildren := mapLabels_congr children fun a ha => h a (Or.inl (Or.inr ha))
    have hforest := mapLabels_congr forest fun a ha => h a (Or.inr ha)
    simp only [mapLabels, mapNode, hlabel, hchildren, hforest]

/-- The labels of a mapped forest. -/
theorem labels_mapLabels (f : α → β) : ∀ forest : List (Node α),
    labels (mapLabels f forest) = (labels forest).map f
  | [] => by simp only [mapLabels, labels, List.map_nil]
  | .node label children :: forest => by
    have hchildren := labels_mapLabels f children
    have hforest := labels_mapLabels f forest
    simp only [mapLabels, mapNode, labels, nodeLabels, hchildren, hforest, List.map_append,
      List.map_cons]

section Digests

variable (empty : β) (step : α × β × β → β)

mutual

/-- The digest of a forest. -/
def digest : List (Node α) → β
  | [] => empty
  | node :: forest => nodeDigest node (digest forest)

/-- The digest of a node before the nodes of the given digest. -/
def nodeDigest : Node α → β → β
  | .node label children, tail => step (label, digest children, tail)

end

mutual

/-- The arguments of the steps taken for a forest. -/
def steps : List (Node α) → List (α × β × β)
  | [] => []
  | node :: forest => nodeSteps node (digest empty step forest) ++ steps forest

/-- The arguments of the steps taken for a node before the nodes of the given digest. -/
def nodeSteps : Node α → β → List (α × β × β)
  | .node label children, tail => (label, digest empty step children, tail) :: steps children

end

variable {empty step}

/-- The steps of a forest are its first node's, those of its children and those of
the nodes behind. -/
theorem steps_cons (label : α) (children forest : List (Node α)) :
    steps empty step (.node label children :: forest) =
      (label, digest empty step children, digest empty step forest) ::
        (steps empty step children ++ steps empty step forest) := by
  simp only [steps, nodeSteps, List.cons_append]

/-- Where steps do not collide and never give the digest of the empty forest, equal
digests come from one forest. -/
theorem digest_injective (taken : Set (α × β × β)) (hinj : Set.InjOn step taken)
    (hempty : ∀ arguments ∈ taken, step arguments ≠ empty) : ∀ first second : List (Node α),
    (∀ arguments ∈ steps empty step first, arguments ∈ taken) →
    (∀ arguments ∈ steps empty step second, arguments ∈ taken) →
    digest empty step first = digest empty step second → first = second
  | [], [], _, _, _ => rfl
  | [], .node label children :: forest, _, hsecond, hdigest => by
    rw [steps_cons] at hsecond
    simp only [digest, nodeDigest] at hdigest
    exact absurd hdigest.symm (hempty _ (hsecond _ List.mem_cons_self))
  | .node label children :: forest, [], hfirst, _, hdigest => by
    rw [steps_cons] at hfirst
    simp only [digest, nodeDigest] at hdigest
    exact absurd hdigest (hempty _ (hfirst _ List.mem_cons_self))
  | .node label children :: forest, .node label' children' :: forest', hfirst, hsecond, hdigest => by
    rw [steps_cons] at hfirst hsecond
    simp only [digest, nodeDigest] at hdigest
    have harguments := hinj (hfirst _ List.mem_cons_self) (hsecond _ List.mem_cons_self) hdigest
    rw [Prod.mk.injEq, Prod.mk.injEq] at harguments
    have hchildren : children = children' :=
      digest_injective taken hinj hempty children children'
        (fun _ ha => hfirst _ (List.mem_cons_of_mem _ (List.mem_append_left _ ha)))
        (fun _ ha => hsecond _ (List.mem_cons_of_mem _ (List.mem_append_left _ ha)))
        harguments.2.1
    have hforest : forest = forest' :=
      digest_injective taken hinj hempty forest forest'
        (fun _ ha => hfirst _ (List.mem_cons_of_mem _ (List.mem_append_right _ ha)))
        (fun _ ha => hsecond _ (List.mem_cons_of_mem _ (List.mem_append_right _ ha)))
        harguments.2.2
    rw [harguments.1, hchildren, hforest]

end Digests

end EthereumSettlement.LabelledForests
