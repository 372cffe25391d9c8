import Mathlib.Data.List.Nodup
import Compositor.FileTree

namespace Compositor

/-! Paths are ordered name by name, as lists are ordered by their first difference. -/

namespace Path

theorem inOrder_iff {first second : List String} :
    inOrder first second = true ↔
      first = second ∨ List.Lex (· < ·) first second := by
  induction first generalizing second with
  | nil =>
      cases second with
      | nil => exact ⟨fun _ => .inl rfl, fun _ => rfl⟩
      | cons other others => exact ⟨fun _ => .inr .nil, fun _ => rfl⟩
  | cons name names induction =>
      cases second with
      | nil => exact ⟨nofun, nofun⟩
      | cons other others =>
          rw [inOrder]
          constructor
          · intro ordered
            split at ordered
            · subst other
              rcases induction.mp ordered with rfl | before
              · exact .inl rfl
              · exact .inr (.cons before)
            · exact .inr (.rel (of_decide_eq_true ordered))
          · rintro (equal | before)
            · cases equal
              simp [induction]
            · cases before with
              | cons before => simp [induction.mpr (.inr before)]
              | rel less =>
                  have different : name ≠ other := by
                    rintro rfl
                    exact String.lt_irrefl _ less
                  simp [different, less]

theorem inOrder_trans (first second third : List String)
    (one : inOrder first second = true) (two : inOrder second third = true) :
    inOrder first third = true := by
  rw [inOrder_iff] at one two ⊢
  rcases one with rfl | before
  · exact two
  · rcases two with rfl | beforeThird
    · exact .inr before
    · exact .inr (List.lex_trans String.lt_trans before beforeThird)

theorem inOrder_total (first second : List String) :
    (inOrder first second || inOrder second first) = true := by
  induction first generalizing second with
  | nil => simp [inOrder]
  | cons name names induction =>
      cases second with
      | nil => simp [inOrder]
      | cons other others =>
          by_cases same : name = other
          · simpa [inOrder, same] using induction others
          · have ordered : name < other ∨ other < name := by
              by_contra neither
              rw [not_or, String.not_lt, String.not_lt] at neither
              exact same (String.le_antisymm neither.2 neither.1)
            simpa [inOrder, same, Ne.symm same] using ordered

theorem eq_of_inOrder {first second : List String} (one : inOrder first second = true)
    (two : inOrder second first = true) : first = second := by
  rw [inOrder_iff] at one two
  rcases one with equal | before
  · exact equal
  · rcases two with equal | after
    · exact equal.symm
    · exact absurd after (List.lex_asymm String.lt_asymm before)

end Path

namespace FileTree

/-! What is at a location. -/

theorem mem_nodes_of_lookup {nodes : List (Location × Node)} {location : Location}
    {node : Node} (found : nodes.lookup location = some node) :
    (location, node) ∈ nodes := by
  obtain ⟨before, after, rfl, -⟩ := List.lookup_eq_some_iff.mp found
  simp

theorem eq_of_mem_nodes (tree : FileTree) {location : Location} {node other : Node}
    (member : (location, node) ∈ tree.nodes)
    (memberOther : (location, other) ∈ tree.nodes) : node = other := by
  have same := List.inj_on_of_nodup_map tree.distinct member memberOther rfl
  exact congrArg Prod.snd same

theorem node?_eq_some_iff (tree : FileTree) {location : Location}
    (placed : isAlwaysThere location = false) {node : Node} :
    tree.node? location = some node ↔ (location, node) ∈ tree.nodes := by
  rw [node?, placed, if_neg Bool.false_ne_true]
  constructor
  · exact mem_nodes_of_lookup
  · intro member
    cases found : tree.nodes.lookup location with
    | none =>
        rw [List.lookup_eq_none_iff] at found
        exact absurd (found _ member) (by simp)
    | some other =>
        rw [tree.eq_of_mem_nodes member (mem_nodes_of_lookup found)]

theorem node?_ext {tree other : FileTree}
    (same : ∀ entry, entry ∈ tree.nodes ↔ entry ∈ other.nodes) (location : Location) :
    tree.node? location = other.node? location := by
  cases placed : isAlwaysThere location with
  | true => rw [node?, node?, placed, if_pos rfl, if_pos rfl]
  | false =>
      ext node
      rw [tree.node?_eq_some_iff placed, other.node?_eq_some_iff placed, same]

/-! What is below a place. -/

/-- These names lead down to a node. Those of the directories above the working
directory lead up. -/
structure Below (tree : FileTree) (place : Location) (names : List String)
    (node : Node) : Prop where
  stored : (place ++ names, node) ∈ tree.nodes
  down : ∀ name ∈ names.head?, name ≠ ".." ∧ name ≠ "/"

theorem namesDown?_eq_some_iff {location other : Location} {names : List String} :
    namesDown? location other = some names ↔
      other = location ++ names ∧ ∀ name ∈ names.head?, name ≠ ".." ∧ name ≠ "/" := by
  have alike : namesDown? location other = some names ↔
      other = location ++ names ∧
        namesDown? location (location ++ names) = some names := by
    constructor
    · intro down
      have below : location <+: other := by
        by_contra apart
        rw [namesDown?, if_neg (by simpa using apart)] at down
        cases down
      obtain ⟨rest, rfl⟩ := below
      obtain rfl : rest = names := by
        simp only [namesDown?, List.drop_left] at down
        split at down
        · split at down <;> simp_all
        · cases down
      exact ⟨rfl, down⟩
    · rintro ⟨rfl, down⟩
      exact down
  rw [alike]
  apply and_congr_right'
  simp only [namesDown?, List.drop_left]
  rw [if_pos (by simp)]
  cases names with
  | nil => simp
  | cons name rest =>
      by_cases above : name = ".."
      · simp [above]
      · by_cases root : name = "/"
        · simp [root]
        · simp [above, root]

def downFrom? (place : Location) : Location × Node → Option (List String)
  | (location, .file _) => namesDown? place location
  | _ => none

theorem filesBelow_eq (tree : FileTree) (place : Location) :
    tree.filesBelow place =
      (tree.nodes.filterMap (downFrom? place)).mergeSort Path.inOrder := by
  apply congrArg fun below => List.mergeSort below Path.inOrder
  apply List.filterMap_congr
  rintro ⟨location, node⟩ -
  cases node <;> rfl

theorem mem_filesBelow_iff (tree : FileTree) (place : Location) (names : List String) :
    names ∈ tree.filesBelow place ↔
      ∃ content, tree.Below place names (.file content) := by
  rw [filesBelow_eq, List.mem_mergeSort, List.mem_filterMap]
  constructor
  · rintro ⟨⟨location, node⟩, member, found⟩
    cases node with
    | file content =>
        obtain ⟨rfl, down⟩ := namesDown?_eq_some_iff.mp found
        exact ⟨content, member, down⟩
    | directory => cases found
    | link target => cases found
  · rintro ⟨content, member, down⟩
    exact ⟨_, member, namesDown?_eq_some_iff.mpr ⟨rfl, down⟩⟩

theorem filesBelow_sorted (tree : FileTree) (place : Location) :
    (tree.filesBelow place).Pairwise fun first second =>
      Path.inOrder first second = true := by
  rw [filesBelow_eq]
  exact List.pairwise_mergeSort Path.inOrder_trans Path.inOrder_total _

theorem filesBelow_nodup (tree : FileTree) (place : Location) :
    (tree.filesBelow place).Nodup := by
  rw [filesBelow_eq, (List.mergeSort_perm _ _).nodup_iff, List.Nodup,
    List.pairwise_filterMap]
  have distinct := List.pairwise_map.mp tree.distinct
  refine distinct.imp ?_
  rintro ⟨location, node⟩ ⟨other, nodeOther⟩ different names found namesOther foundOther
    rfl
  cases node with
  | file content =>
      cases nodeOther with
      | file contentOther =>
          obtain ⟨rfl, -⟩ := namesDown?_eq_some_iff.mp found
          obtain ⟨rfl, -⟩ := namesDown?_eq_some_iff.mp foundOther
          exact different rfl
      | directory => cases foundOther
      | link target => cases foundOther
  | directory => cases found
  | link target => cases found

theorem filesBelow_increasing (tree : FileTree) (place : Location) :
    (tree.filesBelow place).Pairwise (List.Lex (· < ·)) := by
  have both := List.Pairwise.and (tree.filesBelow_sorted place)
    (tree.filesBelow_nodup place)
  refine both.imp ?_
  rintro first second ⟨ordered, different⟩
  exact (Path.inOrder_iff.mp ordered).resolve_left different

theorem eq_of_sorted {first second : List (List String)} (permuted : first.Perm second)
    (sorted : first.Pairwise fun one other => Path.inOrder one other = true)
    (sortedSecond : second.Pairwise fun one other => Path.inOrder one other = true) :
    first = second :=
  permuted.eq_of_pairwise (fun _ _ _ _ => Path.eq_of_inOrder) sorted sortedSecond

theorem filesBelow_perm {tree other : FileTree} (permuted : tree.nodes.Perm other.nodes)
    (place : Location) : tree.filesBelow place = other.filesBelow place := by
  apply eq_of_sorted _ (tree.filesBelow_sorted place) (other.filesBelow_sorted place)
  rw [filesBelow_eq, filesBelow_eq]
  have listed := permuted.filterMap (downFrom? place)
  exact (List.mergeSort_perm _ _).trans (listed.trans (List.mergeSort_perm _ _).symm)

theorem filesBelow_removeWhere (tree : FileTree) (drop : Location → Bool)
    (place : Location) :
    (tree.removeWhere drop).filesBelow place =
      (tree.filesBelow place).filter fun names => !drop (place ++ names) := by
  apply eq_of_sorted
  · rw [List.perm_ext_iff_of_nodup ((tree.removeWhere drop).filesBelow_nodup place)
      ((tree.filesBelow_nodup place).filter _)]
    intro names
    rw [List.mem_filter, mem_filesBelow_iff, mem_filesBelow_iff]
    constructor
    · rintro ⟨content, stored, down⟩
      obtain ⟨member, kept⟩ := List.mem_filter.mp stored
      exact ⟨⟨content, member, down⟩, kept⟩
    · rintro ⟨⟨content, member, down⟩, kept⟩
      exact ⟨content, List.mem_filter.mpr ⟨member, kept⟩, down⟩
  · exact (tree.removeWhere drop).filesBelow_sorted place
  · exact (tree.filesBelow_sorted place).filter _

end FileTree

end Compositor
