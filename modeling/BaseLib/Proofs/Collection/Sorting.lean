import BaseLib.Collection.Sorting
import Mathlib.Data.List.InsertIdx
import Mathlib.Data.List.Pairwise

namespace BaseLib.Sorting

variable {α : Type}

section

variable (lt : α → α → Bool)

def ascent (descending : Bool) : α → List α → Nat
  | _, [] => 0
  | prev, x :: rest => if lt x prev == descending then ascent descending x rest + 1 else 0

def splitRun : List α → List α × List α
  | x :: y :: rest =>
    let n := ascent lt (lt y x) y rest + 2
    let run := (x :: y :: rest).take n
    (if lt y x then run.reverse else run, (x :: y :: rest).drop n)
  | xs => (xs, [])

def place (sorted : List α) (x : α) (low : Nat) : Nat → Nat
  | 0 => low
  | width + 1 =>
    let half := (width + 1) / 2
    match sorted[low + half]? with
    | none => low
    | some y => if lt x y then place sorted x low half else place sorted x (low + half + 1) (width - half)
termination_by width => width

def insertEach (sorted : List α) : List α → List α
  | [] => sorted
  | x :: rest => insertEach (sorted.insertIdx (place lt sorted x 0 sorted.length) x) rest

def arrange (xs : List α) : List α := insertEach lt (splitRun lt xs).1 (splitRun lt xs).2

end

/-- A three-way comparison of elements of which all have an order. -/
structure TotalPreorder (cmp : α → α → Int) : Prop where
  neg_iff : ∀ a b, cmp a b < 0 ↔ 0 < cmp b a
  trans : ∀ {a b c}, cmp a b ≤ 0 → cmp b c ≤ 0 → cmp a c ≤ 0

namespace TotalPreorder

variable {cmp : α → α → Int} {a b c : α}

theorem self (h : TotalPreorder cmp) (a : α) : cmp a a = 0 := by
  have := h.neg_iff a a
  omega

theorem nonpos_iff (h : TotalPreorder cmp) (a b : α) : cmp a b ≤ 0 ↔ 0 ≤ cmp b a := by
  have := h.neg_iff b a
  omega

theorem zero_symm (h : TotalPreorder cmp) (hab : cmp a b = 0) : cmp b a = 0 := by
  have := h.neg_iff a b
  have := h.neg_iff b a
  omega

theorem neg_of_neg_of_nonpos (h : TotalPreorder cmp) (hab : cmp a b < 0) (hbc : cmp b c ≤ 0) :
    cmp a c < 0 := by
  by_contra hac
  have hba := h.trans hbc ((h.nonpos_iff c a).mpr (by omega))
  have := (h.neg_iff a b).mp hab
  omega

theorem zero_trans (h : TotalPreorder cmp) (hab : cmp a b = 0) (hbc : cmp b c = 0) : cmp a c = 0 := by
  have hac := h.trans (a := a) (b := b) (c := c) (by omega) (by omega)
  have hca := h.trans (a := c) (b := b) (c := a) (by have := h.zero_symm hbc; omega)
    (by have := h.zero_symm hab; omega)
  have := (h.nonpos_iff c a).mp hca
  omega

theorem negated (h : TotalPreorder cmp) : TotalPreorder fun a b => -cmp a b := by
  refine ⟨fun a b => ?_, fun {a b c} hab hbc => ?_⟩
  · have := h.neg_iff b a
    omega
  · have hba := (h.nonpos_iff b a).mpr (by omega)
    have hcb := (h.nonpos_iff c b).mpr (by omega)
    have := (h.nonpos_iff c a).mp (h.trans hcb hba)
    omega

theorem neg_of_nonpos_of_neg (h : TotalPreorder cmp) (hab : cmp a b ≤ 0) (hbc : cmp b c < 0) :
    cmp a c < 0 := by
  have hcb := (h.neg_iff b c).mp hbc
  have hba := (h.nonpos_iff a b).mp hab
  have := h.negated.neg_of_neg_of_nonpos (a := c) (b := b) (c := a) (by omega) (by omega)
  exact (h.neg_iff a c).mpr (by omega)

theorem sign (h : TotalPreorder cmp) : TotalPreorder fun a b => (cmp a b).sign := by
  refine ⟨fun a b => ?_, fun {a b c} hab hbc => ?_⟩
  · rw [Int.sign_neg_iff, Int.sign_pos_iff]
    exact h.neg_iff a b
  · rw [Int.sign_nonpos_iff] at hab hbc ⊢
    exact h.trans hab hbc

end TotalPreorder

theorem totalPreorder_sub (f : α → Int) : TotalPreorder fun a b => f a - f b :=
  ⟨fun a b => by omega, fun {a b c} hab hbc => by omega⟩

def classOf (cmp : α → α → Int) (c : α) (xs : List α) : List α := xs.filter fun a => cmp c a = 0

structure StablySorted (cmp : α → α → Int) (xs ys : List α) : Prop where
  ordered : ys.Pairwise fun a b => cmp a b ≤ 0
  stable : ∀ c, classOf cmp c ys = classOf cmp c xs

section

variable {cmp : α → α → Int} {xs ys zs : List α} {x : α}

theorem mem_classOf {a c : α} : a ∈ classOf cmp c xs ↔ a ∈ xs ∧ cmp c a = 0 := by
  simp [classOf]

theorem classOf_append (c : α) : classOf cmp c (xs ++ ys) = classOf cmp c xs ++ classOf cmp c ys :=
  List.filter_append ..

theorem classOf_reverse (c : α) : classOf cmp c xs.reverse = (classOf cmp c xs).reverse :=
  List.filter_reverse ..

theorem StablySorted.perm (h : TotalPreorder cmp) (hs : StablySorted cmp xs ys) : ys.Perm xs := by
  classical
  rw [List.perm_iff_count]
  intro a
  have hcount (zs : List α) : List.count a (classOf cmp a zs) = List.count a zs :=
    List.count_filter (by simp [h.self])
  rw [← hcount ys, ← hcount xs, hs.stable a]

theorem TotalPreorder.head_le {y z : α} (h : TotalPreorder cmp)
    (hys : (y :: ys).Pairwise fun a b => cmp a b ≤ 0) (hz : z ∈ classOf cmp z (y :: ys)) :
    cmp y z ≤ 0 := by
  rcases List.mem_cons.mp (mem_classOf.mp hz).1 with rfl | hz
  · exact Int.le_of_eq (h.self z)
  · exact (List.pairwise_cons.mp hys).1 z hz

theorem eq_of_classOf_eq (h : TotalPreorder cmp) (hys : ys.Pairwise fun a b => cmp a b ≤ 0)
    (hzs : zs.Pairwise fun a b => cmp a b ≤ 0)
    (heq : ∀ c, classOf cmp c ys = classOf cmp c zs) : ys = zs := by
  have hown (a : α) (as : List α) : a ∈ classOf cmp a (a :: as) := mem_classOf.mpr ⟨by simp, h.self a⟩
  induction ys generalizing zs with
  | nil =>
      cases zs with
      | nil => rfl
      | cons z zs => cases heq z ▸ hown z zs
  | cons y ys ih =>
      cases zs with
      | nil => cases heq y ▸ hown y ys
      | cons z zs =>
          -- each head occurs in the other list, so neither comes before the other
          have hyz : cmp y z ≤ 0 := h.head_le hys (heq z ▸ hown z zs)
          have hzy : cmp z y ≤ 0 := h.head_le hzs (heq y ▸ hown y ys)
          have hzero : cmp y z = 0 := by
            have := (h.nonpos_iff z y).mp hzy
            omega
          have hhead := heq y
          simp only [classOf, List.filter_cons, h.self, hzero, decide_true, if_true,
            List.cons.injEq] at hhead
          obtain ⟨rfl, -⟩ := hhead
          refine congrArg _ (ih hys.of_cons hzs.of_cons fun c => ?_)
          have hc := heq c
          by_cases hcy : cmp c y = 0 <;> simpa [classOf, List.filter_cons, hcy] using hc

theorem StablySorted.unique (h : TotalPreorder cmp) (hys : StablySorted cmp xs ys)
    (hzs : StablySorted cmp xs zs) : ys = zs :=
  eq_of_classOf_eq h hys.ordered hzs.ordered fun c => (hys.stable c).trans (hzs.stable c).symm

theorem TotalPreorder.le_of_mem_drop (h : TotalPreorder cmp) (hys : ys.Pairwise fun a b => cmp a b ≤ 0)
    {i : Nat} (hi : i < ys.length) {y : α} (hy : y ∈ ys.drop i) : cmp ys[i] y ≤ 0 := by
  have hdrop := hys.sublist (List.drop_sublist i ys)
  rw [List.drop_eq_getElem_cons hi] at hy hdrop
  rcases List.mem_cons.mp hy with rfl | hy
  · exact Int.le_of_eq (h.self _)
  · exact (List.pairwise_cons.mp hdrop).1 y hy

theorem TotalPreorder.le_of_mem_take (h : TotalPreorder cmp) (hys : ys.Pairwise fun a b => cmp a b ≤ 0)
    {i : Nat} (hi : i < ys.length) {y : α} (hy : y ∈ ys.take (i + 1)) : cmp y ys[i] ≤ 0 := by
  have htake := hys.sublist (List.take_sublist (i + 1) ys)
  rw [List.take_succ_eq_append_getElem hi] at hy htake
  rcases List.mem_append.mp hy with hy | hy
  · exact (List.pairwise_append.mp htake).2.2 y hy _ (by simp)
  · rw [List.mem_singleton.mp hy]
    exact Int.le_of_eq (h.self _)

theorem place_spec (h : TotalPreorder cmp) (hys : ys.Pairwise fun a b => cmp a b ≤ 0) (low width : Nat)
    (hlow : ∀ y ∈ ys.take low, 0 ≤ cmp x y) (hhigh : ∀ y ∈ ys.drop (low + width), cmp x y < 0)
    (hlen : low + width ≤ ys.length) :
    let i := place (fun a b => cmp a b < 0) ys x low width
    i ≤ ys.length ∧ (∀ y ∈ ys.take i, 0 ≤ cmp x y) ∧ ∀ y ∈ ys.drop i, cmp x y < 0 := by
  induction width using Nat.strongRecOn generalizing low with
  | _ width ih =>
      cases width with
      | zero =>
          rw [place]
          exact ⟨by omega, hlow, hhigh⟩
      | succ width =>
          have hmid : low + (width + 1) / 2 < ys.length := by omega
          rw [place]
          simp only [List.getElem?_eq_getElem hmid]
          by_cases hlt : cmp x ys[low + (width + 1) / 2] < 0
          · rw [if_pos (by simpa using hlt)]
            refine ih _ (by omega) _ hlow (fun y hy => ?_) (by omega)
            exact h.neg_of_neg_of_nonpos hlt (h.le_of_mem_drop hys hmid hy)
          · rw [if_neg (by simpa using hlt)]
            refine ih _ (by omega) _ (fun y hy => ?_) (fun y hy => hhigh y ?_) (by omega)
            · have hge := (h.nonpos_iff _ _).mpr (Int.not_lt.mp hlt)
              exact (h.nonpos_iff _ _).mp (h.trans (h.le_of_mem_take hys hmid hy) hge)
            · have hsplit : low + (width + 1) = low + (width + 1) / 2 + 1 + (width - (width + 1) / 2) := by
                omega
              rwa [hsplit]

theorem insertIdx_eq {i : Nat} (hi : i ≤ ys.length) (x : α) :
    ys.insertIdx i x = ys.take i ++ x :: ys.drop i := by
  induction ys generalizing i with
  | nil =>
      obtain rfl : i = 0 := by simpa using hi
      rfl
  | cons y ys ih =>
      cases i with
      | zero => rfl
      | succ i => simpa using ih (by simpa using hi)

theorem stablySorted_insertIdx (h : TotalPreorder cmp) (hs : StablySorted cmp xs ys) (x : α) :
    StablySorted cmp (xs ++ [x])
      (ys.insertIdx (place (fun a b => cmp a b < 0) ys x 0 ys.length) x) := by
  obtain ⟨hi, hlow, hhigh⟩ := place_spec (x := x) h hs.ordered 0 ys.length (by simp) (by simp) (by simp)
  generalize place (fun a b => decide (cmp a b < 0)) ys x 0 ys.length = i at *
  have hparts := hs.ordered
  rw [← List.take_append_drop i ys] at hparts
  obtain ⟨htake, hdrop, hcross⟩ := List.pairwise_append.mp hparts
  rw [insertIdx_eq hi]
  refine ⟨List.pairwise_append.mpr ⟨htake, List.pairwise_cons.mpr ⟨fun y hy => ?_, hdrop⟩, ?_⟩,
    fun c => ?_⟩
  · exact Int.le_of_lt (hhigh y hy)
  · rintro a ha b (_ | ⟨_, hb⟩)
    · exact (h.nonpos_iff _ _).mpr (hlow a ha)
    · exact hcross a ha b hb
  · have hstable := hs.stable c
    rw [← List.take_append_drop i ys, classOf_append] at hstable
    rw [classOf_append, classOf_append, ← hstable]
    by_cases hcx : cmp c x = 0
    · have hnone : classOf cmp c (ys.drop i) = [] := by
        refine List.filter_eq_nil_iff.mpr fun y hy hcy => ?_
        have hxy := h.zero_trans (h.zero_symm hcx) (by simpa using hcy)
        exact absurd (hhigh y hy) (by omega)
      rw [hnone, List.append_nil]
      rw [classOf] at hnone
      simp [classOf, hcx, hnone]
    · simp [classOf, hcx]

theorem stablySorted_insertEach (h : TotalPreorder cmp) (hs : StablySorted cmp xs ys) (rest : List α) :
    StablySorted cmp (xs ++ rest) (insertEach (fun a b => cmp a b < 0) ys rest) := by
  induction rest generalizing xs ys with
  | nil => rwa [List.append_nil]
  | cons x rest ih => simpa [insertEach] using ih (stablySorted_insertIdx h hs x)

theorem isChain_ascent (lt : α → α → Bool) (descending : Bool) (x : α) (xs : List α) :
    List.IsChain (fun a b => lt b a = descending) (x :: xs.take (ascent lt descending x xs)) := by
  induction xs generalizing x with
  | nil => simp
  | cons y ys ih =>
      rw [ascent]
      split
      · rename_i hy
        rw [List.take_succ_cons, List.isChain_cons_cons]
        exact ⟨by simpa using hy, ih y⟩
      · simp

theorem splitRun_append (lt : α → α → Bool) (xs : List α) :
    ∃ run, run ++ (splitRun lt xs).2 = xs ∧
      ((splitRun lt xs).1 = run ∧ run.IsChain (fun a b => lt b a = false) ∨
        (splitRun lt xs).1 = run.reverse ∧ run.IsChain fun a b => lt b a = true) := by
  match xs with
  | [] => exact ⟨[], rfl, .inl ⟨rfl, by simp⟩⟩
  | [x] => exact ⟨[x], rfl, .inl ⟨rfl, by simp⟩⟩
  | x :: y :: rest =>
      have hchain := isChain_ascent lt (lt y x) y rest
      refine ⟨(x :: y :: rest).take (ascent lt (lt y x) y rest + 2), List.take_append_drop _ _, ?_⟩
      have hrun : ((x :: y :: rest).take (ascent lt (lt y x) y rest + 2)).IsChain
          fun a b => lt b a = lt y x := by
        rw [List.take_succ_cons, List.take_succ_cons, List.isChain_cons_cons]
        exact ⟨rfl, hchain⟩
      cases hyx : lt y x with
      | false =>
          rw [hyx] at hrun
          exact .inl ⟨by simp [splitRun, hyx], hrun⟩
      | true =>
          rw [hyx] at hrun
          exact .inr ⟨by simp [splitRun, hyx], hrun⟩

theorem stablySorted_splitRun (h : TotalPreorder cmp) (xs : List α) :
    ∃ run, run ++ (splitRun (fun a b => cmp a b < 0) xs).2 = xs ∧
      StablySorted cmp run (splitRun (fun a b => cmp a b < 0) xs).1 := by
  obtain ⟨run, happend, ⟨heq, hchain⟩ | ⟨heq, hchain⟩⟩ := splitRun_append (fun a b => cmp a b < 0) xs
  · rw [heq]
    refine ⟨run, happend, ?_, fun _ => rfl⟩
    have : Trans (fun a b => cmp a b ≤ 0) (fun a b => cmp a b ≤ 0) fun a b => cmp a b ≤ 0 :=
      ⟨h.trans⟩
    refine List.isChain_iff_pairwise.mp (hchain.imp fun a b hab => ?_)
    have := h.nonpos_iff a b
    simp at hab
    omega
  · have : Trans (fun a b => cmp b a < 0) (fun a b => cmp b a < 0) fun a b => cmp b a < 0 :=
      ⟨fun hab hbc => h.neg_of_neg_of_nonpos hbc (Int.le_of_lt hab)⟩
    have hpair := List.isChain_iff_pairwise.mp (hchain.imp fun a b hab => by simpa using hab)
    rw [heq]
    refine ⟨run, happend, ?_, fun c => ?_⟩
    · exact (List.pairwise_reverse.mpr hpair).imp fun hab => Int.le_of_lt hab
    · rw [classOf_reverse]
      have hclass := hpair.filter fun a => decide (cmp c a = 0)
      cases hc : classOf cmp c run with
      | nil => rfl
      | cons a as =>
          cases as with
          | nil => rfl
          | cons b as =>
              have ha := (mem_classOf.mp (hc ▸ List.mem_cons_self : a ∈ classOf cmp c run)).2
              have hb := (mem_classOf.mp (hc ▸ by simp : b ∈ classOf cmp c run)).2
              have hba := h.zero_trans (h.zero_symm hb) ha
              rw [classOf] at hc
              rw [hc] at hclass
              have := (List.pairwise_cons.mp hclass).1 b (by simp)
              omega

theorem stablySorted_arrange (h : TotalPreorder cmp) (xs : List α) :
    StablySorted cmp xs (arrange (fun a b => cmp a b < 0) xs) := by
  obtain ⟨run, happend, hrun⟩ := stablySorted_splitRun h xs
  have hall := stablySorted_insertEach h hrun (splitRun (fun a b => cmp a b < 0) xs).2
  rwa [happend] at hall

theorem StablySorted.reverse (h : TotalPreorder cmp) (hs : StablySorted cmp xs.reverse ys) :
    StablySorted (fun a b => -cmp a b) xs ys.reverse := by
  refine ⟨(List.pairwise_reverse.mpr hs.ordered).imp fun {a b} hba => ?_, fun c => ?_⟩
  · have := (h.nonpos_iff b a).mp hba
    omega
  · have hsame (zs : List α) : classOf (fun a b => -cmp a b) c zs = classOf cmp c zs := by
      simp [classOf]
    rw [hsame, hsame, classOf_reverse, hs.stable c, classOf_reverse, List.reverse_reverse]

def lexicographic : List (α → α → Int) → α → α → Int
  | [], _, _ => 0
  | cmp :: rest, a, b => if cmp a b = 0 then lexicographic rest a b else cmp a b

theorem lexicographic_cons_eq_zero {rest : List (α → α → Int)} {a b : α} :
    lexicographic (cmp :: rest) a b = 0 ↔ cmp a b = 0 ∧ lexicographic rest a b = 0 := by
  rw [lexicographic]
  split <;> simp_all

theorem totalPreorder_lexicographic {cmps : List (α → α → Int)} (h : ∀ c ∈ cmps, TotalPreorder c) :
    TotalPreorder (lexicographic cmps) := by
  induction cmps with
  | nil => exact ⟨by simp [lexicographic], by simp [lexicographic]⟩
  | cons c rest ih =>
      have hc := h c (by simp)
      have ih := ih fun d hd => h d (by simp [hd])
      refine ⟨fun a b => ?_, fun {a b d} hab hbd => ?_⟩
      · have := hc.neg_iff a b
        have := hc.neg_iff b a
        have := ih.neg_iff a b
        simp only [lexicographic]
        split <;> split <;> omega
      · simp only [lexicographic] at hab hbd ⊢
        by_cases hab0 : c a b = 0
        · by_cases hbd0 : c b d = 0
          · rw [if_pos (hc.zero_trans hab0 hbd0)]
            rw [if_pos hab0] at hab
            rw [if_pos hbd0] at hbd
            exact ih.trans hab hbd
          · rw [if_neg hbd0] at hbd
            have := hc.neg_of_nonpos_of_neg (a := a) (b := b) (c := d) (by omega) (by omega)
            rw [if_neg (by omega)]
            omega
        · rw [if_neg hab0] at hab
          have hbd' : c b d ≤ 0 := by
            split at hbd <;> omega
          have := hc.neg_of_neg_of_nonpos (a := a) (b := b) (c := d) (by omega) hbd'
          rw [if_neg (by omega)]
          omega

theorem StablySorted.refine_key {major : α → α → Int} (h : TotalPreorder major)
    {minors : List (α → α → Int)} (hs : StablySorted (lexicographic minors) xs zs)
    (hm : StablySorted major zs ys) : StablySorted (lexicographic (major :: minors)) xs ys := by
  refine ⟨List.pairwise_iff_forall_sublist.mpr fun {a b} hab => ?_, fun c => ?_⟩
  · have hle := (List.pairwise_cons.mp (hm.ordered.sublist hab)).1 b (by simp)
    rw [lexicographic]
    split
    · rename_i hzero
      -- equal by the major comparison, the two are in the order that the minor ones gave them
      have hclass : [a, b].Sublist (classOf major a ys) := by
        have := hab.filter fun x => decide (major a x = 0)
        simpa [classOf, h.self, hzero] using this
      rw [hm.stable] at hclass
      exact (List.pairwise_cons.mp (hs.ordered.sublist (hclass.trans List.filter_sublist))).1 b
        (by simp)
    · exact hle
  · have hsplit (as : List α) : classOf (lexicographic (major :: minors)) c as =
        classOf (lexicographic minors) c (classOf major c as) := by
      rw [classOf, classOf, classOf, List.filter_filter]
      refine List.filter_congr fun a _ => ?_
      simp [lexicographic_cons_eq_zero, Bool.and_comm]
    have hswap (as : List α) : classOf (lexicographic minors) c (classOf major c as) =
        classOf major c (classOf (lexicographic minors) c as) := by
      simp only [classOf, List.filter_filter, Bool.and_comm]
    rw [hsplit, hsplit, hm.stable, hswap, hs.stable, hswap]

/-- By the last key first; a descending key sorts the list turned round, and turns it back. -/
def arrangeBy : List (Bool × (α → α → Int)) → List α → List α
  | [], xs => xs
  | (descending, cmp) :: rest, xs =>
    let sorted := arrangeBy rest xs
    if descending then (arrange (fun a b => cmp a b < 0) sorted.reverse).reverse
    else arrange (fun a b => cmp a b < 0) sorted

def directed (key : Bool × (α → α → Int)) (a b : α) : Int := if key.1 then -key.2 a b else key.2 a b

theorem totalPreorder_directed {key : Bool × (α → α → Int)} (h : TotalPreorder key.2) :
    TotalPreorder (directed key) := by
  obtain ⟨descending, cmp⟩ := key
  cases descending with
  | true => exact h.negated
  | false => exact h

theorem stablySorted_arrangeBy {keys : List (Bool × (α → α → Int))}
    (h : ∀ key ∈ keys, TotalPreorder key.2) (xs : List α) :
    StablySorted (lexicographic (keys.map directed)) xs (arrangeBy keys xs) := by
  induction keys with
  | nil => exact ⟨List.pairwise_of_forall (by simp [lexicographic]), fun _ => rfl⟩
  | cons key keys ih =>
      have hkey := h key (by simp)
      have ih := ih fun k hk => h k (by simp [hk])
      refine ih.refine_key (totalPreorder_directed hkey) ?_
      obtain ⟨descending, cmp⟩ := key
      cases descending with
      | true => exact (stablySorted_arrange hkey _).reverse hkey
      | false => exact stablySorted_arrange hkey _

theorem totalPreorder_directions {keys : List (Bool × (α → α → Int))}
    (h : ∀ key ∈ keys, TotalPreorder key.2) : TotalPreorder (lexicographic (keys.map directed)) := by
  refine totalPreorder_lexicographic fun c hc => ?_
  obtain ⟨key, hkey, rfl⟩ := List.mem_map.mp hc
  exact totalPreorder_directed (h key hkey)

theorem arrangeBy_eq_arrange {keys : List (Bool × (α → α → Int))}
    (h : ∀ key ∈ keys, TotalPreorder key.2) (xs : List α) :
    arrangeBy keys xs = arrange (fun a b => lexicographic (keys.map directed) a b < 0) xs :=
  have hlex := totalPreorder_directions h
  (stablySorted_arrangeBy h xs).unique hlex (stablySorted_arrange hlex xs)

end

end BaseLib.Sorting
