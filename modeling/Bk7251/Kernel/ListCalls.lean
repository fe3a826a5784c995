import Bk7251.Kernel.ListOrder
import Mathlib.Data.List.TakeWhile
import Mathlib.Data.Set.Insert

/-!
# The calls on lists

What each function of `list.c` makes of the sequences that the lists hold.
-/
namespace Bk7251.Kernel

open Lib Lib.Links

namespace Lists

open ItemPtr Function

variable {ι κ : Type} [DecidableEq ι] [DecidableEq κ] {s s' : Lists ι κ} {live : Set κ} {view : κ → Order ι} {l : κ}
  {i : ι} {o : Order ι}

/-! ### Where the index stands -/

omit [DecidableEq ι] [DecidableEq κ] in
theorem cursor_pushBack : cursor l (o.pushBack i) = (cursor l o : ItemPtr ι κ) := by
  unfold Order.pushBack
  split
  next none => simp [cursor, none]
  next last some => simp [cursor, some]

omit [DecidableEq ι] [DecidableEq κ] in
theorem cursor_insertBy (before : ι → Bool) : cursor l (o.insertBy before i) = (cursor l o : ItemPtr ι κ) := by
  unfold Order.insertBy
  split
  next => rfl
  next stops =>
    have behind : o.passed.dropWhile before ≠ [] := by
      intro none
      exact stops (List.all_eq_true.mpr (List.dropWhile_eq_nil_iff.mp none))
    obtain ⟨last, rest, eq⟩ : ∃ last rest, o.passed.dropWhile before = rest ++ [last] :=
      ⟨_, _, (List.dropLast_append_getLast behind).symm⟩
    have whole : o.passed = (o.passed.takeWhile before ++ rest) ++ [last] := by
      rw [List.append_assoc, ← eq, List.takeWhile_append_dropWhile]
    have new : o.passed.takeWhile before ++ i :: o.passed.dropWhile before =
        (o.passed.takeWhile before ++ i :: rest) ++ [last] := by
      rw [eq]
      simp
    simp only [cursor]
    rw [new, List.getLast?_concat, whole, List.getLast?_concat]

/-! ### Putting an item in -/

/-- The node behind which an item is put. -/
def lastNode (l : κ) (front : List ι) : ItemPtr ι κ := (xListEnd l :: front.map item).getLast (by simp)

/-- Every way of putting an item in: behind some of the items, with the index where it was. -/
theorem Holds.put (holds : s.Holds live view) (member : l ∈ live) (out : s.pvContainer i = none)
    {front back : List ι} (old : (view l).items = front ++ back) (new : o.items = front ++ i :: back)
    (cursor : cursor l o = (cursor l (view l) : ItemPtr ι κ)) {p : ItemPtr ι κ} (last : lastNode l front = p)
    (next : s'.pxNext = update (update s.pxNext (item i) (s.pxNext p)) p (item i))
    (previous : s'.pxPrevious = update (update s.pxPrevious (item i) p) (s.pxNext p) (item i))
    (value : s'.xItemValue = s.xItemValue) (index : s'.pxIndex = s.pxIndex)
    (container : s'.pvContainer = update s.pvContainer i (some l))
    (count : s'.uxNumberOfItems = update s.uxNumberOfItems l (s.uxNumberOfItems l + 1)) :
    s'.Holds live (update view l o) := by
  have circle := holds.circle l member
  have split : nodes l (view l) = (xListEnd l :: front.map item) ++ back.map item := by
    simp [nodes, old]
  have whole : nodes l o = (xListEnd l :: front.map item) ++ item i :: back.map item := by
    simp [nodes, new]
  have notIn : i ∉ (view l).items := by
    rw [holds.contained l member i, out]
    simp
  have fresh : item i ∉ nodes l (view l) := fun inside => notIn (mem_nodes_item.mp inside)
  have within : p ∈ nodes l (view l) := by
    rw [split, ← last]
    exact List.mem_append_left _ (List.getLast_mem _)
  rw [split] at circle fresh
  have put := circle.insertBehind (List.cons_ne_nil _ _) fresh last
  have after : s.pxNext p ∈ nodes l (view l) := by
    obtain ⟨t, head, link, -⟩ := circle.seam (List.cons_ne_nil _ _)
    have inside := List.mem_of_mem_head? head
    rw [← last, split]
    exact link ▸ List.mem_append.mpr (List.mem_append.mp inside).symm
  refine holds.edit member ?_ ?_ (fun _ => by rw [value]) ?_ ?_ ?_ ?_ ?_ ?_
  · intro q off off'
    rw [next, update_of_ne fun eq => off (by rwa [eq]), update_of_ne]
    rintro rfl
    exact off' (by simp [whole])
  · intro q off off'
    rw [previous, update_of_ne fun eq => off (by rwa [eq]), update_of_ne]
    rintro rfl
    exact off' (by simp [whole])
  · rw [next, previous, whole]
    exact put
  · rw [index, cursor, ← holds.index l member, update_eq_self]
  · rw [count, holds.count l member, new, old, List.length_append, List.length_append, List.length_cons, Nat.add_assoc]
  · intro j
    rw [container, new]
    by_cases eq : j = i
    · subst eq
      simp
    · rw [update_of_ne eq, ← holds.contained l member j, old]
      simp [eq]
  · intro j inside
    rw [new] at inside
    by_cases eq : j = i
    · exact .inl (eq ▸ out)
    · refine .inr ((holds.contained l member j).mp ?_)
      rw [old]
      simpa [eq] using inside
  · intro k ne j
    rw [container]
    by_cases eq : j = i
    · subst eq
      rw [update_self, out]
      simp [ne.symm]
    · rw [update_of_ne eq]

/-! ### The calls -/

theorem vListInitialise_spec (holds : s.Holds live view) (fresh : l ∉ live) :
    (s.vListInitialise l).Holds (insert l live) (update view l Order.empty) := by
  have nowhere : ∀ j, s.pvContainer j ≠ some l := fun j eq => fresh (holds.initialised j l eq)
  have apart : ∀ k ∈ live, ∀ p ∈ nodes k (view k), p ≠ xListEnd l := by
    rintro k live' p inside rfl
    exact fresh (mem_nodes_xListEnd.mp inside ▸ live')
  constructor
  case circle =>
    rintro k (rfl | live')
    · rw [update_self]
      exact circular_singleton.mpr ⟨update_self .., update_self ..⟩
    · have ne : k ≠ l := fun eq => fresh (eq ▸ live')
      rw [update_of_ne ne]
      refine (holds.circle k live').congr (fun p inside => ?_) (fun p inside => ?_)
      · exact update_of_ne (apart k live' p inside) ..
      · exact update_of_ne (apart k live' p inside) ..
  case index =>
    rintro k (rfl | live')
    · rw [update_self]
      exact update_self ..
    · have ne : k ≠ l := fun eq => fresh (eq ▸ live')
      rw [update_of_ne ne, ← holds.index k live']
      exact update_of_ne ne ..
  case count =>
    rintro k (rfl | live')
    · rw [update_self]
      exact update_self ..
    · have ne : k ≠ l := fun eq => fresh (eq ▸ live')
      rw [update_of_ne ne, ← holds.count k live']
      exact update_of_ne ne ..
  case marker =>
    rintro k (rfl | live')
    · exact update_self ..
    · have ne : k ≠ l := fun eq => fresh (eq ▸ live')
      exact (update_of_ne (by simpa using ne) ..).trans (holds.marker k live')
  case contained =>
    rintro k (rfl | live') j
    · rw [update_self]
      exact iff_of_false (by simp) (nowhere j)
    · have ne : k ≠ l := fun eq => fresh (eq ▸ live')
      rw [update_of_ne ne]
      exact holds.contained k live' j
  case initialised => exact fun j k container => .inr (holds.initialised j k container)

/-- What has changed besides the links. -/
structure Moved (s s' : Lists ι κ) (i : ι) (container : Option κ) : Prop where
  value : s'.xItemValue = s.xItemValue
  pvContainer : s'.pvContainer = update s.pvContainer i container

omit [DecidableEq ι] [DecidableEq κ] in
theorem nodes_append {front back : List ι} (items : o.items = front ++ back) :
    nodes l o = (xListEnd l :: front.map item : List (ItemPtr ι κ)) ++ back.map item := by
  simp [nodes, items]

theorem vListInsertEnd_spec (holds : s.Holds live view) (member : l ∈ live) (out : s.pvContainer i = none) :
    (s.vListInsertEnd l i).Holds live (update view l ((view l).pushBack i)) ∧
      Moved s (s.vListInsertEnd l i) i (some l) := by
  obtain ⟨front, back, old, new, place⟩ := (view l).items_pushBack i
  have circle := holds.circle l member
  obtain ⟨p, last⟩ : ∃ p, lastNode (κ := κ) l front = p := ⟨_, rfl⟩
  rw [nodes_append old] at circle
  obtain ⟨t, head, after, before⟩ := circle.seam (List.cons_ne_nil _ _)
  change s.pxNext (lastNode l front) = t at after
  change s.pxPrevious t = lastNode l front at before
  rw [last] at after before
  have index : s.pxIndex l = t := by
    rw [holds.index l member]
    rcases place with ⟨none, -, rfl⟩ | ⟨x, passed, rfl⟩
    · simpa [cursor, none] using head
    · simpa [cursor, passed] using head
  have inside : t ∈ nodes l (view l) := by
    rw [nodes_append old]
    exact List.mem_append.mpr (List.mem_append.mp (List.mem_of_mem_head? head)).symm
  have ne : t ≠ item i := by
    rintro rfl
    have here := (holds.contained l member i).mp (mem_nodes_item.mp inside)
    exact absurd (here.symm.trans out) (by simp)
  refine ⟨holds.put member out old new cursor_pushBack last ?_ ?_ rfl rfl rfl rfl, rfl, rfl⟩
  · simp only [vListInsertEnd, contain, index, update_of_ne ne, before, after]
  · simp only [vListInsertEnd, contain, index, before, after]

omit [DecidableEq ι] [DecidableEq κ] in
/-- The loop stops behind the items that are not later. -/
theorem iterate_chain {v : TickType} {xs : List ι} {q : ItemPtr ι κ} {n : Nat}
    (chain : List.IsChain (Link s.pxNext s.pxPrevious) (q :: (xs.map item ++ [xListEnd l])))
    (marker : s.xItemValue (xListEnd l) = portMAX_DELAY) (below : v < portMAX_DELAY) (enough : xs.length < n) :
    s.iterate v n q =
      some ((q :: (xs.takeWhile fun j => s.xItemValue (item j) ≤ v).map item).getLast (by simp)) := by
  induction xs generalizing q n with
  | nil =>
    obtain ⟨fuel, rfl⟩ := Nat.exists_eq_succ_of_ne_zero (Nat.ne_of_gt enough)
    have link : s.pxNext q = xListEnd l := (List.isChain_cons_cons.mp chain).1.1
    have stops : ¬s.xItemValue (s.pxNext q) ≤ v := by rwa [link, marker, UInt32.not_le]
    simp [iterate, stops]
  | cons x xs ih =>
    obtain ⟨fuel, rfl⟩ := Nat.exists_eq_succ_of_ne_zero (Nat.ne_of_gt (Nat.lt_of_le_of_lt (Nat.zero_le _) enough))
    obtain ⟨⟨link, -⟩, rest⟩ := List.isChain_cons_cons.mp chain
    by_cases early : s.xItemValue (item x) ≤ v
    · have onward := ih rest (n := fuel) (by simpa using enough)
      rw [iterate, link, if_pos early, onward, List.takeWhile_cons_of_pos (by simpa using early)]
      rfl
    · have stops : ¬s.xItemValue (s.pxNext q) ≤ v := by rwa [link]
      rw [iterate, if_neg stops, List.takeWhile_cons_of_neg (by simpa using early)]
      rfl

/-- Sorted insertion: behind every item that is not later. -/
theorem vListInsert_spec (holds : s.Holds live view) (member : l ∈ live) (out : s.pvContainer i = none) :
    ∃ s', s.vListInsert l i = some s' ∧
      s'.Holds live (update view l ((view l).insertBy (fun j => s.xItemValue (item j) ≤ s.xItemValue (item i)) i)) ∧
      Moved s s' i (some l) := by
  obtain ⟨v, value⟩ : ∃ v, s.xItemValue (item i) = v := ⟨_, rfl⟩
  obtain ⟨before, order⟩ : ∃ before : ι → Bool, before = fun j => decide (s.xItemValue (item j) ≤ v) := ⟨_, rfl⟩
  have circle := holds.circle l member
  have split : (view l).items = (view l).items.takeWhile before ++ (view l).items.dropWhile before :=
    List.takeWhile_append_dropWhile.symm
  obtain ⟨p, last⟩ : ∃ p, lastNode (κ := κ) l ((view l).items.takeWhile before) = p := ⟨_, rfl⟩
  -- both ways of finding the place agree
  have found : (if v = portMAX_DELAY then some (s.pxPrevious (xListEnd l))
      else s.iterate v (s.uxNumberOfItems l + 1) (xListEnd l)) = some p := by
    split
    next top =>
      have all : (view l).items.takeWhile before = (view l).items := by
        refine List.takeWhile_eq_self_iff.mpr fun j _ => ?_
        rw [order, top]
        exact decide_eq_true (UInt32.le_iff_toNat_le.mpr (Nat.le_of_lt_succ (s.xItemValue (item j)).toNat_lt))
      obtain ⟨-, ⟨-, seam⟩, -⟩ := circular_cons.mp circle
      rw [all] at last
      exact congrArg some (seam.trans last)
    next below =>
      have linked := (Cycle.chain_coe_cons _ _ _).mp circle.linked
      have lower : v < portMAX_DELAY := by
        refine UInt32.lt_of_le_of_ne ?_ below
        exact UInt32.le_iff_toNat_le.mpr (Nat.le_of_lt_succ v.toNat_lt)
      rw [iterate_chain linked (holds.marker l member) lower (by rw [holds.count l member]; omega), ← last, order]
      rfl
  obtain ⟨t, head, after, prior⟩ := (nodes_append split ▸ circle).seam (List.cons_ne_nil _ _)
  change s.pxNext (lastNode l _) = t at after
  change s.pxPrevious t = lastNode l _ at prior
  rw [last] at after prior
  have inside : t ∈ nodes l (view l) := by
    rw [nodes_append split]
    exact List.mem_append.mpr (List.mem_append.mp (List.mem_of_mem_head? head)).symm
  have ne : t ≠ item i := by
    rintro rfl
    have here := (holds.contained l member i).mp (mem_nodes_item.mp inside)
    exact absurd (here.symm.trans out) (by simp)
  rw [value, ← order]
  simp only [vListInsert, value, found, Option.map_some]
  refine ⟨_, rfl, ?_, ⟨rfl, rfl⟩⟩
  refine holds.put member out split (Order.items_insertBy before (view l) i) (cursor_insertBy before) last
    ?_ ?_ rfl rfl rfl rfl
  · simp only [contain, after]
  · simp only [contain, after, update_self]
    exact update_comm ne _ _ _

omit [DecidableEq ι] [DecidableEq κ] in
theorem cursor_eq_item : cursor l o = (item i : ItemPtr ι κ) ↔ o.passed.getLast? = some i := by
  unfold cursor
  cases o.passed.getLast? with
  | none => simp
  | some x => simp

omit [DecidableEq ι] [DecidableEq κ] in
theorem lastNode_eq {front back : List ι} : lastNode l front = (cursor l ⟨front, back⟩ : ItemPtr ι κ) := by
  rcases List.eq_nil_or_concat front with rfl | ⟨rest, x, rfl⟩
  · rfl
  · simp [lastNode, cursor]

omit [DecidableEq κ] in
/-- The index stays where it is unless its item goes. -/
theorem cursor_remove (elsewhere : cursor l o ≠ (item i : ItemPtr ι κ)) :
    cursor l (o.remove i) = (cursor l o : ItemPtr ι κ) := by
  simp only [cursor, Order.remove]
  rcases List.eq_nil_or_concat o.passed with none | ⟨rest, x, split⟩
  · rw [none]
    rfl
  · rw [List.concat_eq_append] at split
    have ne : x ≠ i := fun eq => elsewhere (cursor_eq_item.mpr (by rw [split, eq, List.getLast?_concat]))
    have kept : (rest ++ [x]).erase i = rest.erase i ++ [x] := by
      by_cases inside : i ∈ rest
      · exact List.erase_append_left _ inside
      · rw [List.erase_append_right _ inside, List.erase_of_not_mem inside, List.erase_of_not_mem (by simpa using ne.symm)]
    rw [split, kept, List.getLast?_concat, List.getLast?_concat]

omit [DecidableEq κ] in
/-- Its index then stands on the item before. -/
theorem remove_last {rest : List ι} (nodup : o.items.Nodup) (last : o.passed = rest ++ [i]) :
    o.remove i = ⟨rest, o.ahead⟩ := by
  simp only [Order.items, last, List.append_assoc, List.singleton_append] at nodup
  obtain ⟨outside, others⟩ := (List.nodup_middle.mp nodup |> List.nodup_cons.mp)
  have notBefore : i ∉ rest := fun inside => outside (List.mem_append_left _ inside)
  have notAhead : i ∉ o.ahead := fun inside => outside (List.mem_append_right _ inside)
  rw [Order.remove, last, List.erase_append_right _ notBefore, List.erase_of_not_mem notAhead]
  simp

omit [DecidableEq ι] in
/-- Where an item is; that of the last turn has all the passed ones before it. -/
theorem split_at_item (inside : i ∈ o.items) : ∃ front back, o.items = front ++ i :: back ∧
    ∀ rest, o.passed = rest ++ [i] → front = rest := by
  by_cases last : o.passed.getLast? = some i
  · obtain ⟨rest, eq⟩ := List.getLast?_eq_some_iff.mp last
    refine ⟨rest, o.ahead, by simp [Order.items, eq], fun other eq' => ?_⟩
    exact List.append_cancel_right (eq.symm.trans eq')
  · obtain ⟨front, back, eq⟩ := List.append_of_mem inside
    exact ⟨front, back, eq, fun rest passed => absurd (by rw [passed, List.getLast?_concat]) last⟩

/-- An item is taken out of its list; the index that stood on it goes back by one. -/
theorem uxListRemove_spec (holds : s.Holds live view) (container : s.pvContainer i = some l) :
    ∃ s', s.uxListRemove i = some (s', ((view l).remove i).items.length) ∧
      s'.Holds live (update view l ((view l).remove i)) ∧ Moved s s' i none := by
  have member := holds.initialised i l container
  have inside := (holds.contained l member i).mpr container
  have nodup := holds.nodup member
  obtain ⟨front, back, split, place⟩ := split_at_item inside
  have circle := holds.circle l member
  have whole : nodes l (view l) = (xListEnd l :: front.map item : List (ItemPtr ι κ)) ++ item i :: back.map item := by
    simp [nodes, split]
  have outside : i ∉ front ++ back := by
    rw [split] at nodup
    exact (List.nodup_cons.mp (List.nodup_middle.mp nodup)).1
  have erased : ((view l).remove i).items = front ++ back := by
    have notBefore : i ∉ front := fun before => outside (List.mem_append_left _ before)
    rw [Order.items_remove _ _ nodup, split, List.erase_append_right _ notBefore, List.erase_cons_head]
  have nodes' : nodes l ((view l).remove i) = (xListEnd l :: front.map item : List (ItemPtr ι κ)) ++ back.map item :=
    nodes_append erased
  rw [whole] at circle
  obtain ⟨before, after, out⟩ := circle.removeBehind (List.cons_ne_nil _ _)
  have ne : s.pxNext (item i) ≠ item i := by
    intro eq
    rw [eq] at after
    exact outside (by simpa using after)
  have counted : s.uxNumberOfItems l - 1 = ((view l).remove i).items.length := by
    rw [holds.count l member, split, erased]
    simp
  have index : (if s.pxIndex l = item i then update s.pxIndex l (s.pxPrevious (item i)) else s.pxIndex) =
      update s.pxIndex l (cursor l ((view l).remove i)) := by
    rw [holds.index l member]
    split
    next here =>
      obtain ⟨rest, last⟩ := List.getLast?_eq_some_iff.mp (cursor_eq_item.mp here)
      obtain rfl := place rest last
      rw [remove_last nodup last, ← lastNode_eq, before]
      rfl
    next elsewhere => rw [cursor_remove elsewhere, ← holds.index l member, update_eq_self]
  have previous : update s.pxPrevious (s.pxNext (item i)) (s.pxPrevious (item i)) (item i) = s.pxPrevious (item i) :=
    update_of_ne ne.symm ..
  simp only [uxListRemove, container, Option.map_some, previous]
  rw [index, update_self, counted]
  have first : s.pxPrevious (item i) ∈ nodes l (view l) := by
    rw [before, whole]
    exact List.mem_append_left _ (List.getLast_mem _)
  have second : s.pxNext (item i) ∈ nodes l ((view l).remove i) := nodes' ▸ after
  refine ⟨_, rfl, ?_, ⟨rfl, rfl⟩⟩
  refine holds.edit member ?_ ?_ (fun _ => rfl) (nodes' ▸ out) rfl rfl ?_ ?_ ?_
  · exact fun q off _ => update_of_ne (fun eq => off (by rwa [eq])) ..
  · exact fun q _ off => update_of_ne (fun eq => off (by rwa [eq])) ..
  · intro j
    by_cases eq : j = i
    · subst eq
      simp only [update_self, erased]
      exact iff_of_false outside (by simp)
    · simp only [update_of_ne eq, ← holds.contained l member j, erased, split]
      simp [eq]
  · intro j there
    refine .inr ((holds.contained l member j).mp ?_)
    rw [erased] at there
    rw [split]
    simpa using Or.imp_right Or.inr (List.mem_append.mp there)
  · intro k ne' j
    by_cases eq : j = i
    · subst eq
      simp only [update_self, container]
      simpa using ne'.symm
    · simp only [update_of_ne eq]

/-! ### Reading a list -/

omit [DecidableEq ι] [DecidableEq κ] in
theorem pxNext_xListEnd (holds : s.Holds live view) (member : l ∈ live) :
    s.pxNext (xListEnd l) = ((view l).items.head?.map item).getD (xListEnd l) := by
  have linked := (Cycle.chain_coe_cons _ _ _).mp (holds.circle l member).linked
  cases items : (view l).items with
  | nil =>
    rw [items] at linked
    exact (List.isChain_cons_cons.mp linked).1.1
  | cons x rest =>
    rw [items] at linked
    exact (List.isChain_cons_cons.mp linked).1.1

omit [DecidableEq ι] [DecidableEq κ] in
theorem head_spec (holds : s.Holds live view) (member : l ∈ live) :
    s.listGET_OWNER_OF_HEAD_ENTRY l = (view l).items.head? ∧
      ∀ x ∈ (view l).items.head?, s.listGET_ITEM_VALUE_OF_HEAD_ENTRY l = s.listGET_LIST_ITEM_VALUE x := by
  have first := pxNext_xListEnd holds member
  unfold listGET_OWNER_OF_HEAD_ENTRY listGET_ITEM_VALUE_OF_HEAD_ENTRY listGET_LIST_ITEM_VALUE
  rw [first]
  cases (view l).items.head? with
  | none => simp
  | some x => simp

omit [DecidableEq ι] [DecidableEq κ] in
theorem isEmpty_spec (holds : s.Holds live view) (member : l ∈ live) :
    s.listLIST_IS_EMPTY l = (view l).items.isEmpty := by
  rw [listLIST_IS_EMPTY, holds.count l member]
  cases (view l).items with
  | nil => rfl
  | cons x rest => rfl

omit [DecidableEq ι] in
/-- Only the index moves. -/
theorem Holds.turn (holds : s.Holds live view) (member : l ∈ live) (same : o.items = (view l).items) :
    { s with pxIndex := update s.pxIndex l (cursor l o) }.Holds live (update view l o) := by
  refine holds.edit member (fun _ _ _ => rfl) (fun _ _ _ => rfl) (fun _ => rfl) ?_ rfl ?_ ?_ ?_ (fun _ _ _ => Iff.rfl)
  · rw [nodes, same]
    exact holds.circle l member
  · rw [same, ← holds.count l member, update_eq_self]
  · rw [same]
    exact holds.contained l member
  · rw [same]
    exact fun j inside => .inr ((holds.contained l member j).mp inside)

omit [DecidableEq ι] [DecidableEq κ] in
theorem pxNext_pxIndex (holds : s.Holds live view) (member : l ∈ live) :
    s.pxNext (s.pxIndex l) = ((view l).ahead.head?.map item).getD (xListEnd l) := by
  have circle := holds.circle l member
  rw [nodes_append (show (view l).items = (view l).passed ++ (view l).ahead from rfl)] at circle
  obtain ⟨t, head, after, -⟩ := circle.seam (List.cons_ne_nil _ _)
  have last : lastNode l (view l).passed = (cursor l (view l) : ItemPtr ι κ) := lastNode_eq
  rw [holds.index l member, ← last]
  refine after.trans ?_
  cases ahead : (view l).ahead with
  | nil =>
    rw [ahead] at head
    exact (Option.some.inj head).symm
  | cons x rest =>
    rw [ahead] at head
    exact (Option.some.inj head).symm

/-- The turn goes to the next item, round and round. -/
theorem listGET_OWNER_OF_NEXT_ENTRY_spec (holds : s.Holds live view) (member : l ∈ live) :
    ∃ s', s.listGET_OWNER_OF_NEXT_ENTRY l = (s', (view l).turns.head?) ∧
      s'.Holds live (update view l (view l).advance) ∧ s'.xItemValue = s.xItemValue ∧ s'.pvContainer = s.pvContainer := by
  have after := pxNext_pxIndex holds member
  have first := pxNext_xListEnd holds member
  have turned := holds.turn member (Order.items_advance (view l))
  have step : s.listGET_OWNER_OF_NEXT_ENTRY l =
      ({ s with pxIndex := update s.pxIndex l (cursor l (view l).advance) }, (view l).turns.head?) := by
    unfold listGET_OWNER_OF_NEXT_ENTRY
    simp only [update_self, after]
    cases ahead : (view l).ahead with
    | cons x rest => simp [cursor, Order.advance, Order.turns, ahead]
    | nil =>
      have items : (view l).items = (view l).passed := by simp [Order.items, ahead]
      rw [items] at first
      cases passed : (view l).passed with
      | nil => simp [cursor, Order.advance, Order.turns, ahead, passed, first]
      | cons x rest => simp [cursor, Order.advance, Order.turns, ahead, passed, first]
  exact ⟨_, step, turned, rfl, rfl⟩

theorem listSET_LIST_ITEM_VALUE_spec (holds : s.Holds live view) (v : TickType) :
    (s.listSET_LIST_ITEM_VALUE i v).Holds live view := by
  refine { holds with marker := fun k member => ?_ }
  have other : update s.xItemValue (item i) v (xListEnd k) = s.xItemValue (xListEnd k) := update_of_ne (by simp) ..
  exact other.trans (holds.marker k member)

end Lists

end Bk7251.Kernel
