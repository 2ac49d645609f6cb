import LiveRelay.Proofs.AmfReferences
import Mathlib.Algebra.Group.Nat.Defs
import Mathlib.Data.List.Flatten
import Mathlib.Data.List.Perm.Subperm

/-!
# How many values a value is made of

A value counts for one, and so does every value that stands in it, at any depth.
All of them but the outermost one stand directly in one of its objects and arrays,
so they can be counted object by object and array by array.

The same object may stand in a value again and again.  If it is listed once, with
what stands directly in it, the list is short where the value is large.  But it is
not shorter than the logarithm: from one height to the next, a value grows by no
more than what stands directly in it.
-/

namespace LiveRelay

namespace AmfValue

/-! ## Counting -/

mutual

/-- The value itself and all values that stand in it. -/
def nodes : AmfValue → Nat
  | .object properties => nodesIn properties + 1
  | .ecmaArray properties => nodesIn properties + 1
  | .typedObject _ properties => nodesIn properties + 1
  | .strictArray items => nodesAmong items + 1
  | _ => 1

def nodesAmong : List AmfValue → Nat
  | [] => 0
  | item :: items => nodes item + nodesAmong items

def nodesIn : List (String × AmfValue) → Nat
  | [] => 0
  | (_, value) :: rest => nodes value + nodesIn rest

end

/-- What stands directly in any of these values. -/
def partsAmong (values : List AmfValue) : List AmfValue :=
  values.flatMap parts

@[simp] theorem partsAmong_nil : partsAmong [] = [] := rfl

@[simp] theorem partsAmong_cons (value : AmfValue) (values : List AmfValue) :
    partsAmong (value :: values) = value.parts ++ partsAmong values := rfl

@[simp] theorem partsAmong_append (before behind : List AmfValue) :
    partsAmong (before ++ behind) = partsAmong before ++ partsAmong behind :=
  List.flatMap_append

theorem length_partsAmong_le {few many : List AmfValue} (hsubperm : few.Subperm many) :
    (partsAmong few).length ≤ (partsAmong many).length := by
  obtain ⟨same, hperm, hsublist⟩ := hsubperm
  rw [partsAmong, ← (hperm.flatMap_right parts).length_eq]
  exact (hsublist.flatMap parts).length_le

theorem nodesIn_eq_nodesAmong (properties : Properties) :
    nodesIn properties = nodesAmong (properties.map Prod.snd) := by
  induction properties with
  | nil => rfl
  | cons head rest ih => simp [nodesIn, nodesAmong, ih]

theorem nodes_eq (value : AmfValue) : value.nodes = nodesAmong value.parts + 1 := by
  cases value <;> simp [nodes, parts, nodesAmong, nodesIn_eq_nodesAmong]

theorem nodesAmong_append (before behind : List AmfValue) :
    nodesAmong (before ++ behind) = nodesAmong before + nodesAmong behind := by
  induction before with
  | nil => simp [nodesAmong]
  | cons value before ih => simp [nodesAmong, ih, Nat.add_assoc]

theorem nodesAmong_le {items : List AmfValue} {bound : Nat}
    (hbound : ∀ item ∈ items, item.nodes ≤ bound) :
    nodesAmong items ≤ items.length * bound := by
  induction items with
  | nil => simp [nodesAmong]
  | cons item items ih =>
      have hfirst := hbound item List.mem_cons_self
      have hrest := ih fun other hother => hbound other (List.mem_cons_of_mem _ hother)
      rw [nodesAmong, List.length_cons, Nat.succ_mul]
      omega

/-! ## Objects and arrays -/

theorem holdersIn_eq_holdersAmong (properties : Properties) :
    holdersIn properties = holdersAmong (properties.map Prod.snd) := by
  induction properties with
  | nil => rfl
  | cons head rest ih => simp [holdersIn, holdersAmong, ih]

theorem holders_eq (value : AmfValue) :
    value.IsLeaf ∧ value.holders = [] ∧ value.parts = [] ∨
      ¬ value.IsLeaf ∧ value.holders = value :: holdersAmong value.parts := by
  cases value <;>
    first
    | exact .inl ⟨trivial, rfl, rfl⟩
    | exact .inr ⟨id, by simp [holders, parts, holdersIn_eq_holdersAmong]⟩

theorem isLeaf_null : AmfValue.null.IsLeaf := trivial

theorem parts_of_isLeaf {value : AmfValue} (hleaf : value.IsLeaf) : value.parts = [] := by
  cases value <;> first | rfl | exact hleaf.elim

theorem mem_holdersAmong {items : List AmfValue} {holder : AmfValue} :
    holder ∈ holdersAmong items ↔ ∃ item ∈ items, holder ∈ item.holders := by
  induction items with
  | nil => simp [holdersAmong]
  | cons item items ih => simp [holdersAmong, ih]

theorem height_lt_of_mem_parts {value part : AmfValue} (hpart : part ∈ value.parts) :
    part.height < value.height := by
  rw [height_eq value]
  exact Nat.lt_succ_of_le (heightAmong_le_iff.mp (Nat.le_refl _) part hpart)

theorem nodesAmong_eq_of_nodes {values : List AmfValue}
    (hnodes : ∀ value ∈ values, value.nodes = (partsAmong value.holders).length + 1) :
    nodesAmong values = values.length + (partsAmong (holdersAmong values)).length := by
  induction values with
  | nil => rfl
  | cons value values ih =>
      have hrest := ih fun other hother => hnodes other (List.mem_cons_of_mem _ hother)
      rw [nodesAmong, hnodes value List.mem_cons_self, hrest, holdersAmong,
        partsAmong_append, List.length_append, List.length_cons]
      omega

theorem nodes_eq_length (value : AmfValue) :
    value.nodes = (partsAmong value.holders).length + 1 := by
  induction hheight : value.height using Nat.strongRecOn generalizing value with
  | ind height ih =>
      subst hheight
      have hparts := nodesAmong_eq_of_nodes fun part hpart =>
        ih part.height (height_lt_of_mem_parts hpart) part rfl
      rcases holders_eq value with ⟨-, hholders, hleaf⟩ | ⟨-, hholders⟩
      · rw [nodes_eq, hholders, hleaf]
        rfl
      · rw [nodes_eq, hparts, hholders, partsAmong_cons, List.length_append]

/-- Every value but the outermost ones stands directly in an object or an array. -/
theorem nodesAmong_eq (values : List AmfValue) :
    nodesAmong values = values.length + (partsAmong (holdersAmong values)).length :=
  nodesAmong_eq_of_nodes fun value _ => nodes_eq_length value

theorem mem_holders {value holder : AmfValue} (hholder : holder ∈ value.holders) :
    ¬ value.IsLeaf ∧ holder = value ∨ ∃ part ∈ value.parts, holder ∈ part.holders := by
  rcases holders_eq value with ⟨-, hholders, -⟩ | ⟨hinner, hholders⟩
  · rw [hholders] at hholder
    cases hholder
  · rw [hholders] at hholder
    rcases List.mem_cons.mp hholder with rfl | hamong
    · exact .inl ⟨hinner, rfl⟩
    · exact .inr (mem_holdersAmong.mp hamong)

theorem not_isLeaf_of_mem_holders {value holder : AmfValue}
    (hholder : holder ∈ value.holders) : ¬ holder.IsLeaf := by
  induction hheight : value.height using Nat.strongRecOn generalizing value with
  | ind height ih =>
      subst hheight
      rcases mem_holders hholder with ⟨hinner, rfl⟩ | ⟨part, hpart, hbelow⟩
      · exact hinner
      · exact ih part.height (height_lt_of_mem_parts hpart) hbelow rfl

/-! ## Listed once -/

theorem mem_holders_of_mem_parts {value part holder : AmfValue} (hpart : part ∈ value.parts)
    (hholder : holder ∈ part.holders) : holder ∈ value.holders := by
  rcases holders_eq value with ⟨-, -, hleaf⟩ | ⟨-, hholders⟩
  · rw [hleaf] at hpart
    cases hpart
  · rw [hholders]
    exact List.mem_cons_of_mem _ (mem_holdersAmong.mpr ⟨part, hpart, hholder⟩)

/-- What stands directly in the listed values up to a height. -/
def partsUpTo (listed : List AmfValue) (height : Nat) : Nat :=
  (partsAmong (listed.filter fun value => value.height ≤ height)).length

theorem partsUpTo_mono (listed : List AmfValue) {low high : Nat} (hle : low ≤ high) :
    partsUpTo listed low ≤ partsUpTo listed high := by
  refine length_partsAmong_le (List.Sublist.subperm ?_)
  refine List.monotone_filter_right listed fun value hlow => ?_
  simp only [decide_eq_true_eq] at hlow ⊢
  exact Nat.le_trans hlow hle

theorem partsUpTo_le (listed : List AmfValue) (height : Nat) :
    partsUpTo listed height ≤ (partsAmong listed).length :=
  length_partsAmong_le List.filter_sublist.subperm

/-- A value that is listed adds what stands directly in it at its own height. -/
theorem partsUpTo_add_le {listed : List AmfValue} {value : AmfValue}
    (hlisted : value ∈ listed) {height : Nat} (hheight : height < value.height) :
    partsUpTo listed height + value.parts.length ≤ partsUpTo listed value.height := by
  obtain ⟨before, behind, rfl⟩ := List.append_of_mem hlisted
  have hbefore := partsUpTo_mono before (Nat.le_of_lt hheight)
  have hbehind := partsUpTo_mono behind (Nat.le_of_lt hheight)
  have hhigh : ¬ value.height ≤ height := Nat.not_le_of_lt hheight
  simp only [partsUpTo, List.filter_append, partsAmong_append, List.length_append] at *
  rw [List.filter_cons_of_neg (by simpa using hhigh),
    List.filter_cons_of_pos (by simp), partsAmong_cons, List.length_append]
  omega

/-- If the objects and arrays of a value are listed, the value is at most exponential
in what stands directly in them. -/
theorem nodes_le_two_pow {listed : List AmfValue} {value : AmfValue}
    (hlisted : ∀ holder ∈ value.holders, holder ∈ listed) :
    value.nodes ≤ 2 ^ partsUpTo listed value.height := by
  induction hheight : value.height using Nat.strongRecOn generalizing value with
  | ind height ih =>
      subst hheight
      rcases holders_eq value with ⟨-, -, hleaf⟩ | ⟨-, hholders⟩
      · rw [nodes_eq, hleaf]
        exact Nat.one_le_two_pow
      · obtain ⟨below, hbelow⟩ := Nat.exists_eq_succ_of_ne_zero (Nat.ne_of_gt value.height_pos)
        have hparts : ∀ part ∈ value.parts, part.nodes ≤ 2 ^ partsUpTo listed below := by
          intro part hpart
          have hlow := height_lt_of_mem_parts hpart
          have hpower := ih part.height hlow (fun holder hholder =>
            hlisted holder (mem_holders_of_mem_parts hpart hholder)) rfl
          have hstep := partsUpTo_mono listed (show part.height ≤ below by omega)
          exact Nat.le_trans hpower (Nat.pow_le_pow_right Nat.two_pos hstep)
        have hself : value ∈ listed := hlisted value (by rw [hholders]; exact List.mem_cons_self)
        have hadd := partsUpTo_add_le hself (show below < value.height by omega)
        calc value.nodes
            = nodesAmong value.parts + 1 := nodes_eq value
          _ ≤ value.parts.length * 2 ^ partsUpTo listed below + 2 ^ partsUpTo listed below :=
              Nat.add_le_add (nodesAmong_le hparts) Nat.one_le_two_pow
          _ = (value.parts.length + 1) * 2 ^ partsUpTo listed below := (Nat.succ_mul ..).symm
          _ ≤ 2 ^ value.parts.length * 2 ^ partsUpTo listed below :=
              Nat.mul_le_mul_right _ Nat.lt_two_pow_self
          _ = 2 ^ (partsUpTo listed below + value.parts.length) := by
              rw [Nat.pow_add, Nat.mul_comm]
          _ ≤ 2 ^ partsUpTo listed value.height := Nat.pow_le_pow_right Nat.two_pos hadd

theorem nodesAmong_le_two_pow {listed values : List AmfValue}
    (hlisted : ∀ holder ∈ holdersAmong values, holder ∈ listed) :
    nodesAmong values ≤ 2 ^ (values.length + (partsAmong listed).length) := by
  have hvalues : ∀ value ∈ values, value.nodes ≤ 2 ^ (partsAmong listed).length := by
    intro value hvalue
    have hpower := nodes_le_two_pow fun holder hholder =>
      hlisted holder (mem_holdersAmong.mpr ⟨value, hvalue, hholder⟩)
    exact Nat.le_trans hpower
      (Nat.pow_le_pow_right Nat.two_pos (partsUpTo_le listed value.height))
  calc nodesAmong values
      ≤ values.length * 2 ^ (partsAmong listed).length := nodesAmong_le hvalues
    _ ≤ 2 ^ values.length * 2 ^ (partsAmong listed).length :=
        Nat.mul_le_mul_right _ (Nat.le_of_lt Nat.lt_two_pow_self)
    _ = 2 ^ (values.length + (partsAmong listed).length) := (Nat.pow_add ..).symm

end AmfValue

end LiveRelay
