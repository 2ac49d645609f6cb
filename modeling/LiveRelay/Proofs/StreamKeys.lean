import LiveRelay.StreamPath
import Mathlib.Data.List.TakeWhile

/-!
# Keys of streams

Publisher and viewers meet under the key of a stream, so the spellings of a name
must not give different keys.  What stands behind the first question mark has no
part in the key, and neither have slashes around the application or the name.
Between them the key has the two as they are.

The query is read the way it is put together: parts between ampersands, each cut
at its first equals sign.  Later pairs replace earlier ones with the same key.
-/

namespace LiveRelay

namespace Table

variable {κ α : Type} [DecidableEq κ]

theorem get?_putAll (table : Table κ α) (pairs : List (κ × α)) (key : κ) :
    (table.putAll pairs).get? key = (pairs.reverse.lookup key).or (table.get? key) := by
  induction pairs generalizing table with
  | nil => rfl
  | cons pair pairs ih =>
      obtain ⟨other, content⟩ := pair
      have hput : (table.putAll ((other, content) :: pairs)).get? key =
          ((table.put other content).putAll pairs).get? key := rfl
      rw [hput, ih, get?_put, List.reverse_cons, List.lookup_append, Option.or_assoc]
      by_cases hkey : other = key
      · simp [hkey]
      · have hother : (key == other) = false := by simpa using Ne.symm hkey
        simp [hkey, hother, List.lookup_cons]

/-- Of several pairs with the same key the last one counts. -/
theorem get?_ofPairs (pairs : List (κ × α)) (key : κ) :
    (ofPairs pairs).get? key = pairs.reverse.lookup key := by
  rw [ofPairs, get?_putAll, get?_nil, Option.or_none]

end Table

namespace StreamPath

/-! ## The first mark -/

theorem decide_ne_of_notMem {mark : Char} {chars : List Char} (habsent : mark ∉ chars) :
    ∀ char ∈ chars, decide (char ≠ mark) = true :=
  fun _ hchar => decide_eq_true fun heq => habsent (heq ▸ hchar)

theorem splitFirst_of_notMem {mark : Char} {chars : List Char} (habsent : mark ∉ chars) :
    splitFirst mark chars = (chars, none) := by
  rw [splitFirst, List.dropWhile_eq_nil_iff.mpr (decide_ne_of_notMem habsent)]

theorem splitFirst_append {mark : Char} {before : List Char} (habsent : mark ∉ before)
    (behind : List Char) : splitFirst mark (before ++ mark :: behind) = (before, some behind) := by
  have hother := decide_ne_of_notMem habsent
  rw [splitFirst, List.dropWhile_append_of_pos hother, List.takeWhile_append_of_pos hother]
  simp

/-! ## Slashes at the ends -/

def slashes (count : Nat) : String :=
  String.ofList (List.replicate count '/')

/-- The text is the stem with slashes around it, and the stem has none at its
ends. -/
structure IsStem (stem text : String) : Prop where
  text_eq : ∃ before behind, text = slashes before ++ stem ++ slashes behind
  head_ne : stem.toList.head? ≠ some '/'
  last_ne : stem.toList.getLast? ≠ some '/'

theorem dropWhile_slashes (count : Nat) {chars : List Char} (hhead : chars.head? ≠ some '/') :
    (List.replicate count '/' ++ chars).dropWhile (· = '/') = chars := by
  have hslashes : ∀ char ∈ List.replicate count '/', decide (char = '/') = true := by
    intro char hchar
    exact decide_eq_true (List.eq_of_mem_replicate hchar)
  rw [List.dropWhile_append_of_pos hslashes]
  cases chars with
  | nil => rfl
  | cons first rest =>
      have hfirst : first ≠ '/' := fun heq => hhead (by rw [heq]; rfl)
      simp [hfirst]

theorem exists_slashes (chars : List Char) :
    ∃ count rest, chars = List.replicate count '/' ++ rest ∧ rest.head? ≠ some '/' := by
  induction chars with
  | nil => exact ⟨0, [], rfl, by simp⟩
  | cons first rest ih =>
      by_cases hfirst : first = '/'
      · obtain ⟨count, behind, hrest, hhead⟩ := ih
        exact ⟨count + 1, behind, by rw [hfirst, hrest]; rfl, hhead⟩
      · exact ⟨0, first :: rest, rfl, by simpa using hfirst⟩

theorem exists_isStem (text : String) : ∃ stem, IsStem stem text := by
  obtain ⟨before, rest, htext, hrest⟩ := exists_slashes text.toList
  obtain ⟨behind, mets, hback, hlast⟩ := exists_slashes rest.reverse
  have hrest_eq : rest = mets.reverse ++ List.replicate behind '/' := by
    rw [← List.reverse_reverse rest, hback, List.reverse_append, List.reverse_replicate]
  refine ⟨String.ofList mets.reverse, ⟨before, behind, ?_⟩, ?_, ?_⟩
  · rw [← String.toList_inj]
    simp [slashes, htext, hrest_eq]
  · rw [String.toList_ofList]
    intro hhead
    refine hrest ?_
    rw [hrest_eq, List.head?_append, hhead, Option.some_or]
  · rwa [String.toList_ofList, List.getLast?_reverse]

theorem IsStem.trimSlashes_eq {stem text : String} (hstem : IsStem stem text) :
    trimSlashes text.toList = stem.toList := by
  obtain ⟨before, behind, rfl⟩ := hstem.text_eq
  have hback : stem.toList.reverse.head? ≠ some '/' := by
    rw [List.head?_reverse]
    exact hstem.last_ne
  simp only [slashes, trimSlashes, String.toList_append, String.toList_ofList, List.append_assoc]
  cases hchars : stem.toList with
  | nil =>
      have hall := dropWhile_slashes (before + behind) (show [].head? ≠ some '/' by simp)
      rw [List.append_nil, ← List.replicate_append_replicate] at hall
      rw [List.nil_append, hall]
      rfl
  | cons first rest =>
      have hhead : (stem.toList ++ List.replicate behind '/').head? ≠ some '/' := by
        have hne := hstem.head_ne
        rw [hchars] at hne ⊢
        exact hne
      rw [← hchars, dropWhile_slashes before hhead, List.reverse_append, List.reverse_replicate,
        dropWhile_slashes behind hback, List.reverse_reverse]

/-- Slashes put around a text leave its stem. -/
theorem IsStem.surround {stem text : String} (hstem : IsStem stem text) (before behind : Nat) :
    IsStem stem (slashes before ++ text ++ slashes behind) := by
  obtain ⟨first, last, rfl⟩ := hstem.text_eq
  refine ⟨⟨before + first, last + behind, ?_⟩, hstem.head_ne, hstem.last_ne⟩
  simp only [slashes, ← List.replicate_append_replicate, String.ofList_append, String.append_assoc]

/-! ## Paths -/

theorem parse?_of_isStem {app core name stem : String} (hcore : IsStem core app)
    (hstem : IsStem stem name) (hname : '?' ∉ name.toList) :
    parse? app name =
      if stem = "" then none else some (⟨"/" ++ core ++ "/" ++ stem⟩, []) := by
  have hempty : stem.toList.isEmpty = true ↔ stem = "" := by
    rw [List.isEmpty_iff, ← String.toList_inj]
    rfl
  have harguments : arguments [] = [] := rfl
  have hpath : String.ofList ('/' :: core.toList ++ '/' :: stem.toList) =
      "/" ++ core ++ "/" ++ stem := by
    rw [← String.toList_inj]
    simp
  simp only [parse?, splitFirst_of_notMem hname, hstem.trimSlashes_eq, hcore.trimSlashes_eq,
    hempty, hpath, Option.getD_none, harguments]

theorem parse?_append_query (app : String) {name : String} (hname : '?' ∉ name.toList)
    (query : String) :
    parse? app (name ++ "?" ++ query) =
      (parse? app name).map fun found => (found.1, parseQuery query) := by
  have hchars : (name ++ "?" ++ query).toList = name.toList ++ '?' :: query.toList := by
    simp
  simp only [parse?, hchars, splitFirst_append hname, splitFirst_of_notMem hname, parseQuery,
    Option.getD_some]
  split <;> rfl

/-! ## Queries -/

theorem splitAll_eq_splitOn (mark : Char) (chars : List Char) :
    splitAll mark chars = chars.splitOn mark := by
  induction chars with
  | nil => rfl
  | cons first rest ih =>
      rw [splitAll, ih, List.splitOn_cons_eq_if_modifyHead]
      by_cases hfirst : first = mark
      · simp [hfirst]
      · simp only [hfirst, if_false, beq_iff_eq]
        cases hrest : rest.splitOn mark with
        | nil => exact absurd hrest (List.splitOn_ne_nil _ _)
        | cons part parts => rfl

/-- Pairs as they stand in a query. -/
def joined (pairs : List (String × String)) : String :=
  "&".intercalate (pairs.map fun pair => pair.1 ++ "=" ++ pair.2)

/-- Neither mark stands where it would be taken for one. -/
def IsPlain (pair : String × String) : Prop :=
  '&' ∉ pair.1.toList ∧ '=' ∉ pair.1.toList ∧ '&' ∉ pair.2.toList

instance (pair : String × String) : Decidable (IsPlain pair) :=
  inferInstanceAs (Decidable (_ ∧ _ ∧ _))

theorem argument_joined {pair : String × String} (hplain : IsPlain pair) :
    argument (pair.1.toList ++ '=' :: pair.2.toList) = pair := by
  simp [argument, splitFirst_append hplain.2.1]

theorem parseQuery_joined {pairs : List (String × String)}
    (hplain : ∀ pair ∈ pairs, IsPlain pair) :
    parseQuery (joined pairs) = Table.ofPairs pairs := by
  have hchars : (joined pairs).toList =
      ['&'].intercalate (pairs.map fun pair => pair.1.toList ++ '=' :: pair.2.toList) := by
    simp [joined, String.toList_intercalate, Function.comp_def]
  have hparts : (splitAll '&' (joined pairs).toList).filter (· ≠ []) =
      pairs.map fun pair => pair.1.toList ++ '=' :: pair.2.toList := by
    rw [hchars, splitAll_eq_splitOn]
    by_cases hpairs : pairs = []
    · rw [hpairs]
      rfl
    · have hparts : ∀ part ∈ pairs.map fun pair => pair.1.toList ++ '=' :: pair.2.toList,
          '&' ∉ part ∧ decide (part ≠ []) = true := by
        intro part hpart
        obtain ⟨pair, hpair, rfl⟩ := List.mem_map.mp hpart
        have hpair := hplain pair hpair
        simp [hpair.1, hpair.2.2]
      rw [List.splitOn_intercalate _ (fun part hpart => (hparts part hpart).1)
        (by simpa using hpairs), List.filter_eq_self]
      exact fun part hpart => (hparts part hpart).2
  rw [parseQuery, arguments, hparts, List.map_map]
  congr 1
  refine (List.map_congr_left fun pair hpair => ?_).trans (List.map_id pairs)
  exact argument_joined (hplain pair hpair)

/-! ## Keys -/

/-- A query adds arguments to what its name gives, and nothing else.  The key has
the application and the name without the slashes around them, however many there
are, and there is none if that leaves nothing of the name.  A query put together
from pairs has for each key the last of its values. -/
theorem parse?_ignores_query_and_slashes :
    (∀ app name query : String, '?' ∉ name.toList →
      parse? app (name ++ "?" ++ query) =
        (parse? app name).map fun found => (found.1, parseQuery query)) ∧
    (∀ text, ∃ stem, IsStem stem text) ∧
    (∀ app core name stem : String, IsStem core app → IsStem stem name → '?' ∉ name.toList →
      parse? app name =
        if stem = "" then none else some (⟨"/" ++ core ++ "/" ++ stem⟩, [])) ∧
    (∀ app name : String, '?' ∉ name.toList → ∀ before behind first last,
      parse? (slashes before ++ app ++ slashes behind) (slashes first ++ name ++ slashes last) =
        parse? app name) ∧
    ∀ pairs : List (String × String), (∀ pair ∈ pairs, IsPlain pair) →
      ∀ key, (parseQuery (joined pairs)).get? key = pairs.reverse.lookup key := by
  refine ⟨fun app name query hname => parse?_append_query app hname query, exists_isStem,
    fun app core name stem hcore hstem hname => parse?_of_isStem hcore hstem hname, ?_, ?_⟩
  · intro app name hname before behind first last
    obtain ⟨core, hcore⟩ := exists_isStem app
    obtain ⟨stem, hstem⟩ := exists_isStem name
    have hsurrounded : '?' ∉ (slashes first ++ name ++ slashes last).toList := by
      simp [slashes, hname]
    rw [parse?_of_isStem hcore hstem hname, parse?_of_isStem (hcore.surround before behind)
      (hstem.surround first last) hsurrounded]
  · intro pairs hplain key
    rw [parseQuery_joined hplain, Table.get?_ofPairs]

/-- A name with slashes around it, and a query in which a key comes twice, one key
is empty and an equals sign stands in a value. -/
theorem parse?_ignores_query_and_slashes_of_token :
    let pairs := [("token", "abc"), ("", "x=y"), ("token", "def")]
    IsStem "live" "/live" ∧ IsStem "demo" "//demo/" ∧
      parse? "/live" "//demo/" = some (⟨"/live/demo"⟩, []) ∧
      parse? "/live" ("//demo/" ++ "?" ++ joined pairs) =
        some (⟨"/live/demo"⟩, parseQuery (joined pairs)) ∧
      parse? (slashes 1 ++ "/live" ++ slashes 0) (slashes 0 ++ "//demo/" ++ slashes 2) =
        parse? "/live" "//demo/" ∧
      (parseQuery (joined pairs)).get? "token" = some "def" ∧
      (parseQuery (joined pairs)).get? "" = some "x=y" := by
  intro pairs
  have hcore : IsStem "live" "/live" := ⟨⟨1, 0, by decide⟩, by decide, by decide⟩
  have hstem : IsStem "demo" "//demo/" := ⟨⟨2, 1, by decide⟩, by decide, by decide⟩
  have hname : '?' ∉ "//demo/".toList := by decide
  have hplain : ∀ pair ∈ pairs, IsPlain pair := by decide
  obtain ⟨hquery, -, hpath, haround, hpairs⟩ := parse?_ignores_query_and_slashes
  have hparsed : parse? "/live" "//demo/" = some (⟨"/live/demo"⟩, []) :=
    hpath _ _ _ _ hcore hstem hname
  refine ⟨hcore, hstem, hparsed, ?_, haround _ _ hname 1 0 0 2, hpairs pairs hplain "token",
    hpairs pairs hplain ""⟩
  rw [hquery _ _ _ hname, hparsed]
  rfl

end StreamPath

end LiveRelay
