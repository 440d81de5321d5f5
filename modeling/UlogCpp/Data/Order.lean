import Mathlib.Data.Finset.Sort
import UlogCpp.Data.Map

namespace UlogCpp

/-! Orders in the standard library: the iteration of a `std::map`, and
`std::sort`. -/

namespace Map

variable {κ α : Type} [DecidableEq κ] [LE κ] [DecidableLE κ]
  [IsTrans κ (· ≤ ·)] [Std.Antisymm (α := κ) (· ≤ ·)] [Std.Total (α := κ) (· ≤ ·)]

def entries (map : Map κ α) : List (κ × α) :=
  (map.keys.sort (· ≤ ·)).filterMap fun key =>
    (map.lookup key).map fun value => (key, value)

variable {map : Map κ α}

theorem mem_entries {key : κ} {value : α} :
    (key, value) ∈ map.entries ↔ map.lookup key = some value := by
  constructor
  · intro mem
    obtain ⟨other, _, same⟩ := List.mem_filterMap.mp mem
    obtain ⟨held, found, pair⟩ := Option.map_eq_some_iff.mp same
    cases pair
    exact found
  · intro found
    refine List.mem_filterMap.mpr ⟨key, ?_, by rw [found]; rfl⟩
    exact (Finset.mem_sort _).mpr
      (Finmap.mem_keys.mpr (Finmap.mem_of_lookup_eq_some found))

theorem keys_entries (map : Map κ α) :
    map.entries.map Prod.fst = map.keys.sort (· ≤ ·) := by
  have among : ∀ key ∈ map.keys.sort (· ≤ ·), ∃ value,
      map.lookup key = some value := fun key mem =>
    Finmap.mem_iff.mp (Finmap.mem_keys.mp ((Finset.mem_sort _).mp mem))
  unfold entries
  generalize map.keys.sort (· ≤ ·) = keys at among
  induction keys with
  | nil => rfl
  | cons key keys ih =>
      obtain ⟨value, found⟩ := among key List.mem_cons_self
      have rest := ih fun key mem => among key (List.mem_cons_of_mem _ mem)
      rw [List.filterMap_cons_some (by rw [found]; rfl), List.map_cons, rest]

/-- All values, in whatever order the keys are looked up. -/
theorem lookups_perm {keys : List κ} (perm : keys.Perm (map.keys.sort (· ≤ ·))) :
    (keys.filterMap fun key => map.lookup key).Perm
      (map.entries.map Prod.snd) := by
  have same : map.entries.map Prod.snd =
      (map.keys.sort (· ≤ ·)).filterMap fun key => map.lookup key := by
    rw [entries, List.map_filterMap]
    refine List.filterMap_congr fun key _ => ?_
    rw [Option.map_map]
    exact Option.map_id'
  rw [same]
  exact perm.filterMap _

end Map

/-! ## Sorting -/

structure WeakOrder (less : α → α → Bool) (list : List α) : Prop where
  irrefl : ∀ first ∈ list, less first first = false
  trans : ∀ first ∈ list, ∀ second ∈ list, ∀ third ∈ list,
    less first second = true → less second third = true →
      less first third = true
  incomparable : ∀ first ∈ list, ∀ second ∈ list, ∀ third ∈ list,
    less first second = false → less second first = false →
    less second third = false → less third second = false →
      less first third = false

namespace WeakOrder

variable {less : α → α → Bool} {list : List α}

theorem asymm (order : WeakOrder less list) {first second : α}
    (here : first ∈ list) (there : second ∈ list)
    (before : less first second = true) : less second first = false := by
  cases after : less second first with
  | false => rfl
  | true =>
      have circle := order.trans first here second there first here before after
      rw [order.irrefl first here] at circle
      cases circle

/-- Not to be greater is transitive. -/
theorem trans_not (order : WeakOrder less list) {first second third : α}
    (one : first ∈ list) (two : second ∈ list) (three : third ∈ list)
    (lower : less second first = false) (upper : less third second = false) :
    less third first = false := by
  cases greater : less third first with
  | false => rfl
  | true =>
      have up : less first second = false := by
        cases before : less first second with
        | false => rfl
        | true =>
            rw [← upper]
            exact (order.trans third three first one second two greater
              before).symm
      have down : less second third = false := by
        cases before : less second third with
        | false => rfl
        | true =>
            rw [← lower]
            exact (order.trans second two third three first one before
              greater).symm
      rw [← greater]
      exact order.incomparable third three second two first one upper down lower
        up

theorem ofKey {κ : Type} {lt : κ → κ → Prop} {key : α → κ}
    (irrefl : ∀ key, ¬ lt key key)
    (trans : ∀ {first second third}, lt first second → lt second third →
      lt first third)
    (connected : ∀ {first second}, ¬ lt first second → ¬ lt second first →
      first = second)
    (compares : ∀ first ∈ list, ∀ second ∈ list,
      less first second = true ↔ lt (key first) (key second)) :
    WeakOrder less list where
  irrefl first mem := by
    rw [Bool.eq_false_iff]
    intro before
    exact irrefl _ ((compares first mem first mem).mp before)
  trans first one second two third three lower upper := by
    rw [compares first one second two] at lower
    rw [compares second two third three] at upper
    exact (compares first one third three).mpr (trans lower upper)
  incomparable first one second two third three up down upper lower := by
    have apart {first second : α} (here : first ∈ list) (there : second ∈ list)
        (incomparable : less first second = false) :
        ¬ lt (key first) (key second) := by
      rw [← compares first here second there, incomparable]
      exact Bool.false_ne_true
    have same := connected (apart one two up) (apart two one down)
    rw [Bool.eq_false_iff]
    intro before
    rw [compares first one third three, same] at before
    exact apart two three upper before

end WeakOrder

/-- `std::sort`, which may leave equivalent elements in any order. -/
structure StdSort (α : Type) where
  sort : (α → α → Bool) → List α → List α
  perm : ∀ {less : α → α → Bool} {list : List α}, WeakOrder less list →
    (sort less list).Perm list
  sorted : ∀ {less : α → α → Bool} {list : List α}, WeakOrder less list →
    (sort less list).Pairwise fun first second => less second first = false

def StdSort.insertion (α : Type) : StdSort α where
  sort less list := list.insertionSort fun first second =>
    less second first = false
  perm _ := List.perm_insertionSort _ _
  sorted {less list} order := by
    let upTo (first second : { element // element ∈ list }) : Prop :=
      less second.1 first.1 = false
    have isTrans : IsTrans _ upTo := ⟨fun first second third =>
      order.trans_not first.2 second.2 third.2⟩
    have total : Std.Total upTo := ⟨fun first second => by
      cases before : less second.1 first.1 with
      | false => exact .inl before
      | true => exact .inr (order.asymm second.2 first.2 before)⟩
    have sorted := List.pairwise_insertionSort upTo list.attach
    have same : (list.attach.insertionSort upTo).map Subtype.val =
        list.insertionSort fun first second => less second first = false := by
      rw [List.map_insertionSort _
        (fun first second : α => less second first = false) _ _
        (fun _ _ _ _ => Iff.rfl), List.attach_map_subtype_val]
    rw [← same]
    exact List.pairwise_map.mpr sorted

end UlogCpp
