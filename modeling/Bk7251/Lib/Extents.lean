import Mathlib.Algebra.BigOperators.Group.List.Basic
import Mathlib.Data.List.Basic
import Mathlib.Data.Set.Basic
import Mathlib.Tactic.Common

/-!
# Lists of extents

An extent is an address and how many addresses there are from it on. A normal list of extents is in
order, has no empty extent and no two that touch. There is one normal list for a set of addresses:
its members are the maximal runs of the set.
-/
namespace Lib

/-- Where the extent starts, and its length. -/
abbrev Extent := Nat × Nat

namespace Extent

/-- The address behind the extent. -/
def stop (e : Extent) : Nat := e.1 + e.2

def Disjoint (e f : Extent) : Prop := e.stop ≤ f.1 ∨ f.stop ≤ e.1

instance (e f : Extent) : Decidable (Disjoint e f) := inferInstanceAs (Decidable (_ ∨ _))

theorem Disjoint.symm {e f : Extent} (apart : e.Disjoint f) : f.Disjoint e := Or.symm apart

instance : Std.Symm Disjoint := ⟨fun _ _ => Disjoint.symm⟩

end Extent

namespace Extents

/-- The addresses of the extents. -/
def cover (es : List Extent) : Set Nat := {x | ∃ e ∈ es, e.1 ≤ x ∧ x < e.stop}

def total : List Extent → Nat
  | [] => 0
  | e :: es => e.2 + total es

def Normal : List Extent → Prop
  | [] => True
  | e :: es => 0 < e.2 ∧ (∀ f ∈ es, e.stop < f.1) ∧ Normal es

/-- An extent in front of a list, in one piece with the first one where they touch. -/
def join (e : Extent) : List Extent → List Extent
  | [] => [e]
  | f :: es => if e.stop = f.1 then (e.1, e.2 + f.2) :: es else e :: f :: es

/-- An extent at its place in a list, in one piece with the neighbours that it touches. -/
def insert (e : Extent) : List Extent → List Extent
  | [] => [e]
  | f :: es => if f.1 < e.1 then join f (insert e es) else join e (f :: es)

variable {e f : Extent} {es fs : List Extent}

@[simp] theorem cover_nil : cover [] = ∅ := by
  ext x
  simp [cover]

theorem mem_cover_cons {x : Nat} : x ∈ cover (e :: es) ↔ (e.1 ≤ x ∧ x < e.stop) ∨ x ∈ cover es := by
  simp [cover]

theorem mem_cover_append {x : Nat} : x ∈ cover (es ++ fs) ↔ x ∈ cover es ∨ x ∈ cover fs := by
  simp only [cover, List.mem_append, Set.mem_ofPred_eq, or_and_right, exists_or]

theorem mem_cover_ite {c : Prop} [Decidable c] {x : Nat} : x ∈ cover (if c then es else []) ↔ c ∧ x ∈ cover es := by
  split
  next holds => simp [holds]
  next fails => simp [fails]

@[simp] theorem total_nil : total [] = 0 := rfl

@[simp] theorem total_cons : total (e :: es) = e.2 + total es := rfl

@[simp] theorem total_append : total (es ++ fs) = total es + total fs := by
  induction es with
  | nil => simp
  | cons e es ih => rw [List.cons_append, total_cons, total_cons, ih, Nat.add_assoc]

/-! ### Joining and inserting -/

theorem mem_cover_join {x : Nat} : x ∈ cover (join e es) ↔ x ∈ cover (e :: es) := by
  cases es with
  | nil => exact Iff.rfl
  | cons f es =>
    simp only [join]
    split
    next touch =>
      rw [mem_cover_cons, mem_cover_cons, mem_cover_cons, ← or_assoc]
      apply or_congr_left
      simp only [Extent.stop] at touch ⊢
      omega
    · exact Iff.rfl

@[simp] theorem total_join : total (join e es) = e.2 + total es := by
  cases es with
  | nil => simp [join]
  | cons f es =>
    simp only [join]
    split
    · simp [Nat.add_assoc]
    · simp

theorem mem_cover_insert {x : Nat} : x ∈ cover (insert e es) ↔ x ∈ cover (e :: es) := by
  induction es with
  | nil => exact Iff.rfl
  | cons f es ih =>
    simp only [insert]
    split
    · rw [mem_cover_join, mem_cover_cons, ih, mem_cover_cons, mem_cover_cons, mem_cover_cons]
      exact or_left_comm
    · exact mem_cover_join

@[simp] theorem total_insert : total (insert e es) = e.2 + total es := by
  induction es with
  | nil => simp [insert]
  | cons f es ih =>
    simp only [insert]
    split
    · rw [total_join, ih, total_cons, Nat.add_left_comm]
    · simp

theorem Normal.tail (normal : Normal (e :: es)) : Normal es := normal.2.2

/-- The first addresses of a normal list ascend. -/
theorem Normal.lt (normal : Normal (e :: es)) (member : f ∈ es) : e.1 < f.1 :=
  Nat.lt_of_le_of_lt (Nat.le_add_right _ _) (normal.2.1 f member)

theorem normal_join (positive : 0 < e.2) (normal : Normal es)
    (before : ∀ f ∈ es, e.stop ≤ f.1) : Normal (join e es) := by
  cases es with
  | nil => exact ⟨positive, by simp, trivial⟩
  | cons f es =>
    simp only [join]
    split
    next touch =>
      refine ⟨Nat.add_pos_left positive _, fun g member => ?_, normal.tail⟩
      have further := normal.2.1 g member
      simp only [Extent.stop] at touch further ⊢
      omega
    next apart =>
      have first := before f (by simp)
      refine ⟨positive, fun g member => ?_, normal⟩
      rcases List.mem_cons.mp member with rfl | later
      · omega
      · exact Nat.lt_of_le_of_lt first (normal.lt later)

/-- Where an extent of the list after an insertion starts, an extent started before. -/
theorem head_le_of_mem_insert (member : f ∈ insert e es) : f.1 = e.1 ∨ ∃ g ∈ es, f.1 = g.1 := by
  induction es with
  | nil =>
    rw [List.mem_singleton.mp member]
    exact .inl rfl
  | cons g es ih =>
    simp only [insert] at member
    split at member
    · generalize eq : insert e es = rest at member ih
      cases rest with
      | nil =>
        rw [List.mem_singleton.mp member]
        exact .inr ⟨g, by simp, rfl⟩
      | cons h rest =>
        simp only [join] at member
        split at member
        · rcases List.mem_cons.mp member with rfl | later
          · exact .inr ⟨g, by simp, rfl⟩
          · rcases ih (List.mem_cons_of_mem _ later) with new | ⟨k, old, same⟩
            · exact .inl new
            · exact .inr ⟨k, List.mem_cons_of_mem _ old, same⟩
        · rcases List.mem_cons.mp member with rfl | later
          · exact .inr ⟨f, by simp, rfl⟩
          · rcases ih later with new | ⟨k, old, same⟩
            · exact .inl new
            · exact .inr ⟨k, List.mem_cons_of_mem _ old, same⟩
    · simp only [join] at member
      split at member
      · rcases List.mem_cons.mp member with rfl | later
        · exact .inl rfl
        · exact .inr ⟨f, List.mem_cons_of_mem _ later, rfl⟩
      · rcases List.mem_cons.mp member with rfl | later
        · exact .inl rfl
        · exact .inr ⟨f, later, rfl⟩

/-- A free extent goes into a normal list. -/
theorem normal_insert (positive : 0 < e.2) (normal : Normal es)
    (apart : ∀ f ∈ es, e.Disjoint f) : Normal (insert e es) := by
  induction es with
  | nil => exact ⟨positive, by simp, trivial⟩
  | cons f es ih =>
    have here := apart f (by simp)
    simp only [insert]
    split
    next behind =>
      have inner := ih normal.tail fun g member => apart g (List.mem_cons_of_mem _ member)
      refine normal_join normal.1 inner fun g member => ?_
      rcases head_le_of_mem_insert member with new | ⟨k, old, same⟩
      · rw [new]
        rcases here with before | after
        · simp only [Extent.stop] at before
          omega
        · exact after
      · rw [same]
        exact Nat.le_of_lt (normal.2.1 k old)
    next before =>
      refine normal_join positive normal fun g member => ?_
      have low : e.stop ≤ f.1 := by
        rcases here with left | right
        · exact left
        · have := normal.1
          simp only [Extent.stop] at right
          omega
      rcases List.mem_cons.mp member with rfl | later
      · exact low
      · exact Nat.le_trans low (Nat.le_of_lt (normal.lt later))

/-! ### One list for a set -/

theorem notMem_of_lt {x : Nat} (low : ∀ f ∈ es, x < f.1) : x ∉ cover es := by
  rintro ⟨f, member, above, _⟩
  exact absurd (low f member) (Nat.not_lt.mpr above)

/-- The address behind the first extent of a normal list is free. -/
theorem Normal.stop_notMem (normal : Normal (e :: es)) : e.stop ∉ cover (e :: es) := by
  rw [mem_cover_cons]
  rintro (inside | later)
  · exact Nat.lt_irrefl _ inside.2
  · exact notMem_of_lt normal.2.1 later

/-- Normal lists of the same addresses are equal: the extents are the maximal runs. -/
theorem Normal.ext (left : Normal es) (right : Normal fs) (same : cover es = cover fs) : es = fs := by
  induction es generalizing fs with
  | nil =>
    cases fs with
    | nil => rfl
    | cons f fs =>
      have member : f.1 ∈ cover (f :: fs) :=
        mem_cover_cons.mpr (.inl ⟨Nat.le_refl _, Nat.lt_add_of_pos_right right.1⟩)
      rw [← same, cover_nil] at member
      cases member
  | cons e es ih =>
    cases fs with
    | nil =>
      have member : e.1 ∈ cover (e :: es) :=
        mem_cover_cons.mpr (.inl ⟨Nat.le_refl _, Nat.lt_add_of_pos_right left.1⟩)
      rw [same, cover_nil] at member
      cases member
    | cons f fs =>
      -- both lists start where the set does, and their first extents stop where the run does
      have lowest : ∀ {g h : Extent} {gs hs : List Extent}, Normal (g :: gs) → Normal (h :: hs) →
          cover (g :: gs) = cover (h :: hs) → h.1 ≤ g.1 := by
        intro g h gs hs ng nh eq
        have member : g.1 ∈ cover (h :: hs) :=
          eq ▸ mem_cover_cons.mpr (.inl ⟨Nat.le_refl _, Nat.lt_add_of_pos_right ng.1⟩)
        rcases mem_cover_cons.mp member with inside | ⟨k, later, above, _⟩
        · exact inside.1
        · exact Nat.le_trans (Nat.le_of_lt (nh.lt later)) above
      have start : e.1 = f.1 := Nat.le_antisymm (lowest right left same.symm) (lowest left right same)
      have run : ∀ {g h : Extent} {gs hs : List Extent}, Normal (g :: gs) → Normal (h :: hs) →
          cover (g :: gs) = cover (h :: hs) → g.1 = h.1 → g.stop ≤ h.stop := by
        intro g h gs hs ng nh eq first
        by_contra longer
        have member : h.stop ∈ cover (g :: gs) :=
          mem_cover_cons.mpr (.inl ⟨by simp only [Extent.stop]; omega, Nat.not_le.mp longer⟩)
        rw [eq] at member
        exact nh.stop_notMem member
      have finish : e.stop = f.stop :=
        Nat.le_antisymm (run left right same start) (run right left same.symm start.symm)
      have equal : e = f := by
        refine Prod.ext start ?_
        simp only [Extent.stop] at finish
        omega
      subst equal
      have rest : cover es = cover fs := by
        ext x
        have whole : x ∈ cover (e :: es) ↔ x ∈ cover (e :: fs) := by rw [same]
        rw [mem_cover_cons, mem_cover_cons] at whole
        by_cases inside : e.1 ≤ x ∧ x < e.stop
        · have behind : ∀ {gs : List Extent}, Normal (e :: gs) → x ∉ cover gs := fun normal =>
            notMem_of_lt fun g member => Nat.lt_trans inside.2 (normal.2.1 g member)
          exact iff_of_false (behind left) (behind right)
        · simpa [inside] using whole
      rw [ih left.tail right.tail rest]

/-! ### Taking an extent out -/

theorem normal_append : Normal (es ++ fs) ↔
    Normal es ∧ Normal fs ∧ ∀ e ∈ es, ∀ f ∈ fs, e.stop < f.1 := by
  induction es with
  | nil => simp [Normal]
  | cons e es ih =>
    simp only [List.cons_append, Normal, ih, List.mem_append, List.forall_mem_cons]
    constructor
    · rintro ⟨positive, apart, first, second, between⟩
      exact ⟨⟨positive, fun f member => apart f (.inl member), first⟩, second,
        fun f member => apart f (.inr member), between⟩
    · rintro ⟨⟨positive, inner, first⟩, second, outer, between⟩
      refine ⟨positive, fun f member => ?_, first, second, between⟩
      exact member.elim (inner f) (outer f)

theorem join_of_ne (apart : ∀ f ∈ es.head?, e.stop ≠ f.1) : join e es = e :: es := by
  cases es with
  | nil => rfl
  | cons f es => exact if_neg (apart f rfl)

/-- An insertion behind the first extent leaves that one in front, possibly a longer one. -/
theorem head?_insert (before : f.1 < e.1) : ((insert e (f :: es)).head?.map (·.1)) = some f.1 := by
  simp only [insert, if_pos before]
  generalize insert e es = rest
  cases rest with
  | nil => rfl
  | cons g rest =>
    simp only [join]
    split <;> rfl

/-- Where the list is cut, an insertion joins at most the two extents beside the cut. -/
theorem insert_append (normal : Normal (es ++ [f])) (before : f.1 < e.1) (gs : List Extent) :
    insert e (es ++ f :: gs) = es ++ insert e (f :: gs) := by
  induction es with
  | nil => rfl
  | cons g es ih =>
    have low : g.1 < f.1 := normal.lt (List.mem_append_right _ (List.mem_singleton_self f))
    rw [List.cons_append, insert, if_pos (Nat.lt_trans low before), ih normal.tail]
    -- the extent in front does not touch what follows it
    refine join_of_ne fun k head => ?_
    cases es with
    | nil =>
      have first : ((insert e (f :: gs)).head?.map (·.1)) = some f.1 := head?_insert before
      rw [List.nil_append] at head
      rw [Option.mem_def.mp head, Option.map_some, Option.some.injEq] at first
      exact first ▸ Nat.ne_of_lt (normal.2.1 f (by simp))
    | cons h es =>
      simp only [List.cons_append, List.head?_cons, Option.mem_def, Option.some.injEq] at head
      exact head ▸ Nat.ne_of_lt (normal.2.1 h (by simp))

/-- What holds of two extents that touch holds of the piece that they make. -/
def ClosedUnderJoin (P : Extent → Prop) : Prop := ∀ e f : Extent, e.stop = f.1 → P e → P f → P (e.1, e.2 + f.2)

theorem forall_join {P : Extent → Prop} (closed : ClosedUnderJoin P) (own : P e) (all : ∀ f ∈ es, P f) :
    ∀ g ∈ join e es, P g := by
  cases es with
  | nil => simpa [join] using own
  | cons f es =>
    rw [List.forall_mem_cons] at all
    simp only [join]
    split
    next touch => exact List.forall_mem_cons.mpr ⟨closed e f touch own all.1, all.2⟩
    · exact List.forall_mem_cons.mpr ⟨own, List.forall_mem_cons.mpr all⟩

theorem forall_insert {P : Extent → Prop} (closed : ClosedUnderJoin P) (own : P e) (all : ∀ f ∈ es, P f) :
    ∀ g ∈ insert e es, P g := by
  induction es with
  | nil => simpa [insert] using own
  | cons f es ih =>
    have both := List.forall_mem_cons.mp all
    simp only [insert]
    split
    · exact forall_join closed both.1 (ih both.2)
    · exact forall_join closed own all

/-- An extent that is not empty lies between no two that touch. -/
theorem closed_disjoint {g : Extent} (positive : 0 < g.2) : ClosedUnderJoin g.Disjoint := by
  intro e f touch left right
  simp only [Extent.Disjoint, Extent.stop] at *
  omega

theorem Normal.pos (normal : Normal es) : ∀ e ∈ es, 0 < e.2 := by
  induction es with
  | nil => simp
  | cons e es ih => exact List.forall_mem_cons.mpr ⟨normal.1, ih normal.tail⟩

/-! ### What an insertion put in -/

/-- A piece of the list contains the extent. -/
def Holding (e : Extent) (es : List Extent) : Prop :=
  ∃ pre g post, es = pre ++ g :: post ∧ g.1 ≤ e.1 ∧ e.stop ≤ g.stop

theorem holding_join : Holding e (join e es) := by
  cases es with
  | nil => exact ⟨[], e, [], rfl, Nat.le_refl _, Nat.le_refl _⟩
  | cons f es =>
    simp only [join]
    split
    · refine ⟨[], _, es, rfl, Nat.le_refl _, ?_⟩
      simp only [Extent.stop]
      omega
    · exact ⟨[], e, f :: es, rfl, Nat.le_refl _, Nat.le_refl _⟩

theorem Holding.join (holding : Holding e es) : Holding e (join f es) := by
  obtain ⟨pre, g, post, rfl, low, high⟩ := holding
  cases pre with
  | nil =>
    simp only [List.nil_append, Extents.join]
    split
    next touch =>
      refine ⟨[], _, post, rfl, ?_, ?_⟩
      · simp only [Extent.stop] at touch
        dsimp only
        omega
      · simp only [Extent.stop] at touch high ⊢
        omega
    · exact ⟨[f], g, post, rfl, low, high⟩
  | cons k pre =>
    simp only [List.cons_append, Extents.join]
    split
    · exact ⟨_ :: pre, g, post, rfl, low, high⟩
    · exact ⟨f :: k :: pre, g, post, rfl, low, high⟩

theorem holding_insert : Holding e (insert e es) := by
  induction es with
  | nil => exact ⟨[], e, [], rfl, Nat.le_refl _, Nat.le_refl _⟩
  | cons f es ih =>
    simp only [insert]
    split
    · exact ih.join
    · exact holding_join

/-- What is left of `g` on both sides of `e`. -/
def around (g e : Extent) : List Extent :=
  (if g.1 < e.1 then [(g.1, e.1 - g.1)] else []) ++ if e.stop < g.stop then [(e.stop, g.stop - e.stop)] else []

theorem mem_cover_around {g : Extent} (low : g.1 ≤ e.1) (high : e.stop ≤ g.stop) {x : Nat} :
    x ∈ cover (around g e) ↔ (g.1 ≤ x ∧ x < g.stop) ∧ ¬(e.1 ≤ x ∧ x < e.stop) := by
  simp only [around, mem_cover_append, mem_cover_ite, mem_cover_cons, cover_nil, Set.mem_empty_iff_false, or_false]
  simp only [Extent.stop] at high ⊢
  omega

/-- Taking out again what was inserted gives back the list. -/
theorem around_insert {pre post : List Extent} {g : Extent} (normal : Normal es) (positive : 0 < e.2)
    (apart : ∀ f ∈ es, e.Disjoint f) (inserted : insert e es = pre ++ g :: post) (low : g.1 ≤ e.1)
    (high : e.stop ≤ g.stop) : pre ++ around g e ++ post = es := by
  have whole := normal_insert positive normal apart
  rw [inserted] at whole
  obtain ⟨first, second, between⟩ := normal_append.mp whole
  have stop : e.stop = e.1 + e.2 := rfl
  have pieces : ∀ f ∈ around g e, 0 < f.2 ∧ g.1 ≤ f.1 ∧ f.stop ≤ g.stop := by
    intro f member
    simp only [around, List.mem_append] at member
    rcases member with left | right
    · split at left
      · obtain rfl := List.mem_singleton.mp left
        simp only [Extent.stop] at *
        omega
      · cases left
    · split at right
      · obtain rfl := List.mem_singleton.mp right
        simp only [Extent.stop] at *
        omega
      · cases right
  have normalAround : Normal (around g e) := by
    unfold around
    split <;> split <;> simp only [List.append_nil, List.nil_append, List.singleton_append, Normal, List.not_mem_nil,
      false_imp_iff, implies_true, and_true, List.mem_singleton, forall_eq, Extent.stop] at * <;> omega
  have normalPieces : Normal (pre ++ around g e ++ post) := by
    refine normal_append.mpr ⟨normal_append.mpr ⟨first, normalAround, fun f before k piece => ?_⟩, second.tail,
      fun f member k behind => ?_⟩
    · exact Nat.lt_of_lt_of_le (between f before g (by simp)) (pieces k piece).2.1
    · rcases List.mem_append.mp member with before | piece
      · exact between f before k (by simp [behind])
      · exact Nat.lt_of_le_of_lt (pieces f piece).2.2 (second.2.1 k behind)
  refine Normal.ext normalPieces normal ?_
  ext x
  have all : x ∈ cover (insert e es) ↔ x ∈ cover (e :: es) := mem_cover_insert
  rw [inserted, mem_cover_append, mem_cover_cons, mem_cover_cons] at all
  rw [mem_cover_append, mem_cover_append, mem_cover_around low high]
  -- inside `e` there is nothing of the list, nor of the other pieces
  by_cases own : e.1 ≤ x ∧ x < e.stop
  · have gone : x ∉ cover es := by
      rintro ⟨f, member, above, below⟩
      have side := apart f member
      simp only [Extent.Disjoint] at side
      omega
    have notPre : x ∉ cover pre := by
      rintro ⟨f, member, above, below⟩
      have gap := between f member g (by simp)
      omega
    have notPost : x ∉ cover post := by
      rintro ⟨f, member, above, below⟩
      have gap := second.2.1 f member
      omega
    simp [own, gone, notPre, notPost]
  · simp only [own, not_false_eq_true, and_true]
    rw [or_assoc, all]
    simp [own]

theorem insert_of_le (behind : ∀ f ∈ es, e.1 ≤ f.1) : insert e es = join e es := by
  cases es with
  | nil => rfl
  | cons f es => exact if_neg (Nat.not_lt.mpr (behind f (by simp)))

/-- Three extents that touch make one piece, whichever two are joined first. -/
theorem join_join (touch : f.stop = e.1) : join f (join e es) = join (f.1, f.2 + e.2) es := by
  cases es with
  | nil => exact if_pos touch
  | cons g es =>
    have stop : Extent.stop (f.1, f.2 + e.2) = e.stop := by
      simp only [Extent.stop] at touch ⊢
      omega
    by_cases onward : e.stop = g.1
    · have inner : join e (g :: es) = (e.1, e.2 + g.2) :: es := if_pos onward
      have outer : join f ((e.1, e.2 + g.2) :: es) = (f.1, f.2 + (e.2 + g.2)) :: es := if_pos touch
      rw [inner, outer, join, if_pos (stop.trans onward), Nat.add_assoc]
    · have inner : join e (g :: es) = e :: g :: es := if_neg onward
      have outer : join f (e :: g :: es) = (f.1, f.2 + e.2) :: g :: es := if_pos touch
      rw [inner, outer, join, if_neg (stop ▸ onward)]

theorem head_join {g : Extent} (head : g ∈ (join e es).head?) : g.1 = e.1 := by
  cases es with
  | nil =>
    simp only [join, List.head?_cons, Option.mem_def, Option.some.injEq] at head
    rw [head]
  | cons f es =>
    simp only [join] at head
    split at head
    · simp only [List.head?_cons, Option.mem_def, Option.some.injEq] at head
      rw [← head]
    · simp only [List.head?_cons, Option.mem_def, Option.some.injEq] at head
      rw [head]

theorem head_le_of_mem_join {g : Extent} (later : ∀ f ∈ es, e.stop ≤ f.1) (member : g ∈ join e es) :
    e.1 ≤ g.1 := by
  have low : e.1 ≤ e.stop := Nat.le_add_right _ _
  cases es with
  | nil => rw [List.mem_singleton.mp member]
  | cons f es =>
    simp only [join] at member
    split at member
    · rcases List.mem_cons.mp member with rfl | inside
      · exact Nat.le_refl _
      · exact Nat.le_trans low (later g (List.mem_cons_of_mem _ inside))
    · rcases List.mem_cons.mp member with rfl | inside
      · exact Nat.le_refl _
      · exact Nat.le_trans low (later g inside)

/-- The extents that start before an address, and the others. -/
theorem split_at (a : Nat) (normal : Normal es) :
    ∃ pre post, es = pre ++ post ∧ (∀ f ∈ pre, f.1 < a) ∧ ∀ f ∈ post, a ≤ f.1 := by
  induction es with
  | nil => exact ⟨[], [], rfl, by simp, by simp⟩
  | cons e es ih =>
    by_cases low : e.1 < a
    · obtain ⟨pre, post, rfl, before, behind⟩ := ih normal.tail
      refine ⟨e :: pre, post, rfl, fun f member => ?_, behind⟩
      rcases List.mem_cons.mp member with rfl | inside
      · exact low
      · exact before f inside
    · refine ⟨[], e :: es, rfl, by simp, fun f member => ?_⟩
      rcases List.mem_cons.mp member with rfl | inside
      · exact Nat.not_lt.mp low
      · exact Nat.le_trans (Nat.not_lt.mp low) (Nat.le_of_lt (normal.lt inside))

/-- Extents below a bound hold no more addresses than there are. -/
theorem Normal.total_le {lo hi : Nat} (normal : Normal es) (low : ∀ f ∈ es, lo ≤ f.1)
    (high : ∀ f ∈ es, f.stop ≤ hi) (order : lo ≤ hi) : lo + total es ≤ hi := by
  induction es generalizing lo with
  | nil => exact order
  | cons e es ih =>
    have rest : e.stop + total es ≤ hi := ih normal.tail (fun f member => Nat.le_of_lt (normal.2.1 f member))
      (fun f member => high f (List.mem_cons_of_mem _ member)) (high e (by simp))
    have start := low e (by simp)
    simp only [total_cons, Extent.stop] at rest ⊢
    omega

theorem Normal.length_le_total (normal : Normal es) : es.length ≤ total es := by
  induction es with
  | nil => exact Nat.le_refl 0
  | cons e es ih =>
    have rest := ih normal.tail
    have positive := normal.1
    simp only [List.length_cons, total_cons]
    omega

theorem Normal.length_le {hi : Nat} (normal : Normal es) (high : ∀ f ∈ es, f.stop ≤ hi) : es.length ≤ hi := by
  have all := normal.total_le (fun f _ => Nat.zero_le f.1) high (Nat.zero_le hi)
  have few := normal.length_le_total
  omega

end Extents

end Lib
