import Mathlib.Data.List.Sort

/-! Lists that are read in pages. A page that others follow ends with a cursor for its last item, and the next one
has what is ordered behind that. -/
namespace Keyset

section Order
variable {α κ : Type} [LinearOrder κ] (key : α → κ) {rows front back : List α} {last : α}

def inOrder (rows : List α) : List α := rows.insertionSort fun a b => key a ≤ key b

theorem mem_inOrder {row : α} : row ∈ inOrder key rows ↔ row ∈ rows := List.mem_insertionSort _

theorem pairwise_inOrder (h : (rows.map key).Nodup) : (inOrder key rows).Pairwise fun a b => key a < key b := by
  have hperm := List.perm_insertionSort (fun a b => key a ≤ key b) rows
  have hle : (inOrder key rows).Pairwise fun a b => key a ≤ key b :=
    List.pairwise_insertionSort (fun a b => key a ≤ key b) rows
  have hne : (inOrder key rows).Pairwise fun a b => key a ≠ key b :=
    List.pairwise_map.mp (((hperm.map key).nodup_iff).mpr h)
  exact (hle.and hne).imp fun h => lt_of_le_of_ne h.1 h.2

theorem inOrder_filter (keep : α → Bool) (h : (rows.map key).Nodup) :
    inOrder key (rows.filter keep) = (inOrder key rows).filter keep := by
  have hperm : (inOrder key (rows.filter keep)).Perm ((inOrder key rows).filter keep) :=
    (List.perm_insertionSort _ _).trans ((List.perm_insertionSort _ _).symm.filter keep)
  have hkept : ((rows.filter keep).map key).Nodup := h.sublist (List.filter_sublist.map key)
  refine hperm.eq_of_pairwise ?_ (pairwise_inOrder key hkept) ((pairwise_inOrder key h).filter keep)
  intro a b _ _ hab hba
  exact absurd hab (not_lt_of_gt hba)

theorem filter_behind (h : (front ++ last :: back).Pairwise fun a b => key a < key b) :
    (front ++ last :: back).filter (fun row => key last < key row) = back := by
  obtain ⟨-, hback, hfront⟩ := List.pairwise_append.mp h
  have hbefore : front.filter (fun row => key last < key row) = [] := by
    rw [List.filter_eq_nil_iff]
    intro row hrow
    simpa using le_of_lt (hfront row hrow last List.mem_cons_self)
  have hafter : back.filter (fun row => key last < key row) = back :=
    List.filter_eq_self.mpr fun row hrow => decide_eq_true ((List.pairwise_cons.mp hback).1 row hrow)
  rw [List.filter_append, hbefore, List.filter_cons_of_neg (by simp), hafter, List.nil_append]

end Order

section Pages
variable {α γ ε : Type}

abbrev Page (α γ : Type) := List α × Option γ

/-- Following the cursors from one on ends, and gives these items. -/
inductive Follows (read : Option γ → Except ε (Page α γ)) : Option γ → List α → Prop where
  | last {cursor : Option γ} {items : List α} (h : read cursor = .ok (items, none)) : Follows read cursor items
  | next {cursor : Option γ} {items more : List α} {after : γ} (h : read cursor = .ok (items, some after))
      (rest : Follows read (some after) more) : Follows read cursor (items ++ more)

def page (limit : Nat) (cursorOf : α → Except ε γ) (rows : List α) : Except ε (Page α γ) :=
  if limit < rows.length then
    match (rows.take limit).getLast? with
    | some item => (cursorOf item).map fun after => (rows.take limit, some after)
    | none => .ok (rows.take limit, none)
  else .ok (rows, none)

def IsPageEnd (limit : Nat) (rows : List α) (item : α) : Prop :=
  ∃ k, (k+1)*limit < rows.length ∧ rows[(k+1)*limit-1]? = some item

variable {limit : Nat} {rows items : List α} {cursorOf : α → Except ε γ} {read : Option γ → Except ε (Page α γ)}
  {cursor : Option γ}

theorem cursorOf_of_page {after : γ} (h : page limit cursorOf rows = .ok (items, some after)) :
    ∃ item, cursorOf item = .ok after := by
  unfold page at h
  split at h
  · split at h
    case h_1 item hlast =>
      cases hcursor : cursorOf item with
      | error error =>
        rw [hcursor] at h
        cases h
      | ok found =>
        rw [hcursor] at h
        cases h
        exact ⟨item, hcursor⟩
    case h_2 => cases h
  · cases h

theorem isPageEnd_iff (hlimit : 0 < limit) (h : limit < rows.length) {item : α} :
    IsPageEnd limit rows item ↔ rows[limit-1]? = some item ∨ IsPageEnd limit (rows.drop limit) item := by
  have hshift (k : Nat) : (k+1+1)*limit = (k+1)*limit+limit := Nat.succ_mul (k+1) limit
  have hpositive (k : Nat) : 0 < (k+1)*limit := Nat.mul_pos (Nat.succ_pos k) hlimit
  constructor
  · rintro ⟨k, hk, hitem⟩
    cases k with
    | zero => exact .inl (by simpa using hitem)
    | succ k =>
      have hindex : limit+((k+1)*limit-1) = (k+1+1)*limit-1 := by
        have := hpositive k
        have := hshift k
        omega
      refine .inr ⟨k, ?_, ?_⟩
      · rw [List.length_drop]
        have := hshift k
        omega
      · rw [List.getElem?_drop, hindex, hitem]
  · rintro (hfirst | ⟨k, hk, hitem⟩)
    · exact ⟨0, by simpa using h, by simpa using hfirst⟩
    · have hindex : limit+((k+1)*limit-1) = (k+1+1)*limit-1 := by
        have := hpositive k
        have := hshift k
        omega
      rw [List.length_drop] at hk
      rw [List.getElem?_drop, hindex] at hitem
      refine ⟨k+1, ?_, hitem⟩
      have := hshift k
      omega

theorem not_isPageEnd (h : rows.length ≤ limit) (item : α) : ¬ IsPageEnd limit rows item := by
  rintro ⟨k, hk, -⟩
  have hle : limit ≤ (k+1)*limit := Nat.le_mul_of_pos_left limit (Nat.succ_pos k)
  omega

/-- What one cursor leads to is determined. -/
theorem follows_last_iff (h : read cursor = .ok (items, none)) {found : List α} :
    Follows read cursor found ↔ found = items := by
  constructor
  · intro hfollows
    cases hfollows with
    | last hread => exact congrArg Prod.fst (Except.ok.inj (hread.symm.trans h))
    | next hread _ => cases congrArg Prod.snd (Except.ok.inj (hread.symm.trans h))
  · rintro rfl
    exact .last h

theorem follows_next_iff {after : γ} (h : read cursor = .ok (items, some after)) {found : List α} :
    Follows read cursor found ↔ ∃ more, Follows read (some after) more ∧ found = items ++ more := by
  constructor
  · intro hfollows
    cases hfollows with
    | last hread => cases congrArg Prod.snd (Except.ok.inj (hread.symm.trans h))
    | next hread hrest =>
      obtain ⟨rfl, hafter⟩ := Prod.mk.inj (Except.ok.inj (hread.symm.trans h))
      obtain rfl := Option.some.inj hafter
      exact ⟨_, hrest, rfl⟩
  · rintro ⟨more, hrest, rfl⟩
    exact .next h hrest

theorem not_follows_of_error {error : ε} (h : read cursor = .error error) {found : List α} :
    ¬ Follows read cursor found := by
  intro hfollows
  cases hfollows with
  | last hread => cases hread.symm.trans h
  | next hread _ => cases hread.symm.trans h

/-- Where each cursor leads to the page that it stands before, following them gives what is left, just when every
page that others follow has a cursor. -/
theorem follows_iff {Shows : Option γ → List α → Prop} (hlimit : 0 < limit)
    (hread : ∀ {cursor rows}, Shows cursor rows → read cursor = page limit cursorOf rows)
    (hnext : ∀ {cursor rows item after}, Shows cursor rows → limit < rows.length →
      (rows.take limit).getLast? = some item → cursorOf item = .ok after → Shows (some after) (rows.drop limit))
    (h : Shows cursor rows) (found : List α) :
    Follows read cursor found ↔
      found = rows ∧ ∀ item, IsPageEnd limit rows item → ∃ after, cursorOf item = .ok after := by
  induction hlength : rows.length using Nat.strongRecOn generalizing cursor rows found with
  | ind length ih =>
    have hpage := hread h
    by_cases hmore : limit < rows.length
    · have hlast : (rows.take limit).getLast? = rows[limit-1]? := by
        rw [List.getLast?_eq_getElem?, List.length_take, Nat.min_eq_left (le_of_lt hmore),
          List.getElem?_take_of_lt (by omega)]
      obtain ⟨item, hitem⟩ : ∃ item, rows[limit-1]? = some item := ⟨_, List.getElem?_eq_getElem (by omega)⟩
      simp only [page, if_pos hmore, hlast, hitem] at hpage
      cases hcursor : cursorOf item with
      | error error =>
        rw [hcursor] at hpage
        refine iff_of_false (not_follows_of_error hpage) ?_
        rintro ⟨-, hends⟩
        obtain ⟨after, hafter⟩ := hends item ((isPageEnd_iff hlimit hmore).mpr (.inl hitem))
        cases hafter.symm.trans hcursor
      | ok after =>
        rw [hcursor] at hpage
        have hshows := hnext h hmore (hlast.trans hitem) hcursor
        have hdrop : (rows.drop limit).length < length := by
          rw [List.length_drop]
          omega
        rw [follows_next_iff hpage]
        constructor
        · rintro ⟨more, hrest, rfl⟩
          obtain ⟨rfl, hends⟩ := (ih _ hdrop hshows more rfl).mp hrest
          refine ⟨List.take_append_drop limit rows, fun item' hend => ?_⟩
          obtain hfirst | hlater := (isPageEnd_iff hlimit hmore).mp hend
          · obtain rfl := Option.some.inj (hitem.symm.trans hfirst)
            exact ⟨after, hcursor⟩
          · exact hends item' hlater
        · rintro ⟨rfl, hends⟩
          refine ⟨_, (ih _ hdrop hshows (found.drop limit) rfl).mpr ⟨rfl, fun item' hlater => ?_⟩,
            (List.take_append_drop limit found).symm⟩
          exact hends item' ((isPageEnd_iff hlimit hmore).mpr (.inr hlater))
    · rw [page, if_neg hmore] at hpage
      rw [follows_last_iff hpage]
      refine (and_iff_left ?_).symm
      intro item hend
      exact absurd hend (not_isPageEnd (by omega) item)

end Pages

end Keyset
