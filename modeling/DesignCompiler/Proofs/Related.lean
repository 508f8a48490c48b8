import Mathlib.Data.List.Forall2
/-!
# Lists whose items correspond

`List.Forall₂ R as bs` says that two lists correspond item by item, and
`List.SublistForall₂ R as bs` that one corresponds to a subsequence of the other. Both are kept by
what walks over trees are made of: writing lists behind one another, and a list for each item.
-/

namespace DesignCompiler

variable {α β γ δ : Type} {R : α → β → Prop}

/-- What is in the first list has a partner in the second. -/
theorem exists_mem_of_forall₂ {as : List α} {bs : List β} (h : List.Forall₂ R as bs) {a : α}
    (ha : a ∈ as) : ∃ b ∈ bs, R a b := by
  induction h with
  | nil => exact absurd ha List.not_mem_nil
  | cons hab _ ih =>
    rcases List.mem_cons.mp ha with rfl | ha
    · exact ⟨_, List.mem_cons_self, hab⟩
    · obtain ⟨b, hb, hab⟩ := ih ha
      exact ⟨b, List.mem_cons_of_mem _ hb, hab⟩

/-- Partners for all members make a list of partners. -/
theorem exists_forall₂ {as : List α} (h : ∀ a ∈ as, ∃ b, R a b) : ∃ bs, List.Forall₂ R as bs := by
  induction as with
  | nil => exact ⟨[], .nil⟩
  | cons a as ih =>
    obtain ⟨b, hab⟩ := h a List.mem_cons_self
    obtain ⟨bs, hbs⟩ := ih fun a' ha' => h a' (List.mem_cons_of_mem _ ha')
    exact ⟨b :: bs, .cons hab hbs⟩

/-- Items that correspond by having the same image have the same images in order. -/
theorem map_eq_map_of_forall₂ {f : α → γ} {g : β → γ} {as : List α} {bs : List β}
    (h : List.Forall₂ (fun a b => f a = g b) as bs) : as.map f = bs.map g := by
  rw [← List.forall₂_eq_eq_eq, List.forall₂_map_left_iff, List.forall₂_map_right_iff]
  exact h

/-- Lists made from the items of one list are related as a whole, if they are piece by piece. -/
theorem forall₂_flatMap {f : γ → List α} {g : γ → List β} {cs : List γ}
    (h : ∀ c ∈ cs, List.Forall₂ R (f c) (g c)) :
    List.Forall₂ R (cs.flatMap f) (cs.flatMap g) := by
  induction cs with
  | nil => exact .nil
  | cons c cs ih =>
    rw [List.flatMap_cons, List.flatMap_cons]
    exact List.rel_append (h c List.mem_cons_self)
      (ih fun d hd => h d (List.mem_cons_of_mem _ hd))

/-- Related sublists stay related when two pairs of lists are joined. -/
theorem sublistForall₂_append {as as' : List α} {bs bs' : List β}
    (h : List.SublistForall₂ R as bs) (h' : List.SublistForall₂ R as' bs') :
    List.SublistForall₂ R (as ++ as') (bs ++ bs') := by
  induction h with
  -- Whatever the second list has is passed over, and `as'` is found after it.
  | @nil bs =>
    induction bs with
    | nil => exact h'
    | cons b bs ih => exact .cons_right ih
  | cons hab _ ih => exact .cons hab ih
  | cons_right _ ih => exact .cons_right ih

/-- Lists made from items that correspond are related as a whole, if they are piece by piece. -/
theorem sublistForall₂_flatMap {S : γ → δ → Prop} {f : γ → List α} {g : δ → List β}
    {cs : List γ} {ds : List δ} (h : List.Forall₂ S cs ds)
    (hpiece : ∀ c, ∀ d ∈ ds, S c d → List.SublistForall₂ R (f c) (g d)) :
    List.SublistForall₂ R (cs.flatMap f) (ds.flatMap g) := by
  induction h with
  | nil => exact .nil
  | cons hcd _ ih =>
    rw [List.flatMap_cons, List.flatMap_cons]
    exact sublistForall₂_append (hpiece _ _ List.mem_cons_self hcd)
      (ih fun c d hd => hpiece c d (List.mem_cons_of_mem _ hd))

end DesignCompiler
