import CloudPing.Conc.Store
import CloudPing.Grid.Position
import Mathlib.Data.String.Basic

/-!
# The ping matrix

`PingMatrix` keeps one value for each pair of a location and a destination, row by row in one
slice.  The row and the column of a pair are looked up by name.  A Go map yields zero for a key
that it does not have, so a name that the matrix does not have is taken for the first one: the
guards of `WriteSample` and `GetValue` against an index out of range never see it.

For the names of the constructor the matrix is a map (`valueOf_writeSample`, `getIdx_inj`).  What
is promised of it holds for a write exactly if both names are of these (`stores_iff`).
-/

namespace CloudPing.Utils

/-- `sort.Strings`. -/
def sortStrings (s : List String) : List String := s.mergeSort (· ≤ ·)

def checkSortedStringsDup : List String → Bool
  | a :: b :: s => a == b || checkSortedStringsDup (b :: s)
  | _ => false

theorem mem_sortStrings {x : String} {s : List String} : x ∈ sortStrings s ↔ x ∈ s :=
  List.mem_mergeSort

theorem length_sortStrings (s : List String) : (sortStrings s).length = s.length :=
  List.length_mergeSort _

theorem sorted_sortStrings (s : List String) : (sortStrings s).Pairwise (· ≤ ·) := by
  have h := @List.pairwise_mergeSort _ (fun a b : String => decide (a ≤ b)) ?_ ?_ s
  · exact h.imp of_decide_eq_true
  · intro a b c hab hbc
    exact decide_eq_true (le_trans (of_decide_eq_true hab) (of_decide_eq_true hbc))
  · intro a b
    rw [Bool.or_eq_true, decide_eq_true_eq, decide_eq_true_eq]
    exact le_total a b

/-- In a sorted list equal strings are neighbours. -/
theorem nodup_of_checkSortedStringsDup {s : List String} (hs : s.Pairwise (· ≤ ·))
    (h : checkSortedStringsDup s = false) : s.Nodup := by
  have hchain : ∀ s : List String, s.Pairwise (· ≤ ·) → checkSortedStringsDup s = false →
      s.IsChain (· < ·) := by
    intro s hs h
    induction s using checkSortedStringsDup.induct with
    | case1 a b s ih =>
      rw [checkSortedStringsDup, Bool.or_eq_false_iff, beq_eq_false_iff_ne] at h
      have hab : a ≤ b := (List.pairwise_cons.1 hs).1 b List.mem_cons_self
      exact .cons_cons (lt_of_le_of_ne hab h.1) (ih (List.pairwise_cons.1 hs).2 h.2)
    | case2 s hshort =>
      match s, hshort with
      | [], _ => exact .nil
      | [a], _ => exact .singleton a
      | a :: b :: s, hshort => exact absurd rfl (hshort a b s)
  exact (List.isChain_iff_pairwise.1 (hchain s hs h)).imp ne_of_lt

end CloudPing.Utils

namespace CloudPing.Tui

open Conc Utils

/-! ## The index -/

/-- The index that a loop over the names writes into a map. -/
def indexMap (names : List String) : Store String Nat :=
  names.zipIdx.foldl (fun m p => m.insert p.1 p.2) ∅

/-- A read of the map, which is zero for a key that it does not have. -/
def readIdx (m : Store String Nat) (name : String) : Nat := (m.lookup name).getD 0

theorem lookup_foldl_insert {names : List String} (hn : names.Nodup) (k : Nat)
    (m : Store String Nat) (name : String) :
    ((names.zipIdx k).foldl (fun m p => m.insert p.1 p.2) m).lookup name =
      if name ∈ names then some (k + names.idxOf name) else m.lookup name := by
  induction names generalizing k m with
  | nil => rfl
  | cons a names ih =>
    rw [List.nodup_cons] at hn
    rw [List.zipIdx_cons, List.foldl_cons, ih hn.2, Store.lookup_insert_eq]
    by_cases ha : name = a
    · subst ha
      simp [hn.1]
    · by_cases hmem : name ∈ names
      · rw [if_pos hmem, if_pos (List.mem_cons_of_mem _ hmem), List.idxOf_cons_ne _ (Ne.symm ha),
          Nat.add_assoc, Nat.add_comm 1]
      · simp [ha, hmem]

theorem readIdx_indexMap {names : List String} (hn : names.Nodup) (name : String) :
    readIdx (indexMap names) name = if name ∈ names then names.idxOf name else 0 := by
  rw [readIdx, indexMap, lookup_foldl_insert hn]
  split_ifs with hmem
  · simp
  · rfl

theorem readIdx_lt {names : List String} (hn : names.Nodup) (hpos : names ≠ []) (name : String) :
    readIdx (indexMap names) name < names.length := by
  rw [readIdx_indexMap hn]
  split_ifs with hmem
  · exact List.idxOf_lt_length_of_mem hmem
  · exact List.length_pos_of_ne_nil hpos

theorem readIdx_inj {names : List String} (hn : names.Nodup) {a b : String} (ha : a ∈ names)
    (hb : b ∈ names) (h : readIdx (indexMap names) a = readIdx (indexMap names) b) : a = b := by
  rw [readIdx_indexMap hn, readIdx_indexMap hn, if_pos ha, if_pos hb] at h
  exact (List.idxOf_inj ha).1 h

/-! ## The matrix -/

inductive PingMatrixOrientation where
  /-- One row for each destination. -/
  | tgtSrc
  /-- One row for each source. -/
  | srcTgt
  | other (text : String)
  deriving DecidableEq

structure PingMatrix (V : Type) where
  orientation : PingMatrixOrientation
  loc2IdxMap : Store String Nat
  dest2IdxMap : Store String Nat
  sortedColNames : List String
  sortedRowNames : List String
  dataStore : List (Option V)

variable {V : Type}

namespace PingMatrix

variable (mat : PingMatrix V) (loc dest : String)

/-- The matrix of sorted names, without values. -/
def make (orientation : PingMatrixOrientation) (sortedLocs sortedDests sortedColNames
    sortedRowNames : List String) : PingMatrix V where
  orientation := orientation
  loc2IdxMap := indexMap sortedLocs
  dest2IdxMap := indexMap sortedDests
  sortedColNames := sortedColNames
  sortedRowNames := sortedRowNames
  dataStore := List.replicate (sortedRowNames.length * sortedColNames.length) none

def getIdx : Int :=
  let numCols := mat.sortedColNames.length
  match mat.orientation with
  | .tgtSrc =>
    let row := readIdx mat.dest2IdxMap dest
    let col := readIdx mat.loc2IdxMap loc
    (row * numCols + col : Nat)
  | .srcTgt =>
    let row := readIdx mat.loc2IdxMap loc
    let col := readIdx mat.dest2IdxMap dest
    (row * numCols + col : Nat)
  | .other _ => -1

/-- `WriteSample`.  The index is inside the slice (`getIdx_inside`). -/
def writeSample (val : V) : PingMatrix V :=
  let idx := mat.getIdx loc dest
  if 0 ≤ idx then { mat with dataStore := mat.dataStore.set idx.toNat (some val) } else mat

def getValue (colName rowName : String) : Option V :=
  let value (idx : Int) : Option V :=
    if idx < 0 ∨ mat.dataStore.length ≤ idx then none else (mat.dataStore[idx.toNat]?).join
  match mat.orientation with
  | .tgtSrc => value (mat.getIdx colName rowName)
  | .srcTgt => value (mat.getIdx rowName colName)
  | .other _ => none

/-- The value of a pair, for which `GetValue` is asked by column and row. -/
def valueOf : Option V :=
  match mat.orientation with
  | .srcTgt => mat.getValue dest loc
  | _ => mat.getValue loc dest

/-- Samples that are written one after the other. -/
def writeSamples (samples : List (String × String × V)) : PingMatrix V :=
  samples.foldl (fun mat s => mat.writeSample s.1 s.2.1 s.2.2) mat

end PingMatrix

def newPingMatrix (locations destinations : List String) (orientation : PingMatrixOrientation) :
    Except String (PingMatrix V) :=
  if locations.length = 0 then .error "locations slice is empty"
  else if destinations.length = 0 then .error "destinations slice is empty"
  else
    let sortedLocs := sortStrings locations
    let sortedDests := sortStrings destinations
    match orientation with
    | .tgtSrc =>
      if checkSortedStringsDup sortedLocs then .error "duplicated column name"
      else if checkSortedStringsDup sortedDests then .error "duplicated row name"
      else .ok (.make .tgtSrc sortedLocs sortedDests sortedLocs sortedDests)
    | .srcTgt =>
      if checkSortedStringsDup sortedDests then .error "duplicated column name"
      else if checkSortedStringsDup sortedLocs then .error "duplicated row name"
      else .ok (.make .srcTgt sortedLocs sortedDests sortedDests sortedLocs)
    | .other _ => .error "invalid orientation"

/-! ## Rows and columns -/

namespace PingMatrix

/-- A matrix of these locations and destinations, in the order of its index. -/
structure Holds (orientation : PingMatrixOrientation) (locs dests : List String)
    (mat : PingMatrix V) : Prop where
  locs_nodup : locs.Nodup
  dests_nodup : dests.Nodup
  locs_ne : locs ≠ []
  dests_ne : dests ≠ []
  locMap : mat.loc2IdxMap = indexMap locs
  destMap : mat.dest2IdxMap = indexMap dests
  oriented : mat.orientation = orientation
  names : orientation = .tgtSrc ∧ mat.sortedColNames = locs ∧ mat.sortedRowNames = dests ∨
    orientation = .srcTgt ∧ mat.sortedColNames = dests ∧ mat.sortedRowNames = locs
  size : mat.dataStore.length = mat.sortedRowNames.length * mat.sortedColNames.length

section Holds

variable {mat : PingMatrix V} {orientation : PingMatrixOrientation} {locs dests : List String}
  {loc dest : String}

/-- Every index is inside the slice, whatever the names. -/
theorem getIdx_inside (h : mat.Holds orientation locs dests) (loc dest : String) :
    ∃ i : Nat, mat.getIdx loc dest = i ∧ i < mat.dataStore.length := by
  have hloc := readIdx_lt h.locs_nodup h.locs_ne loc
  have hdest := readIdx_lt h.dests_nodup h.dests_ne dest
  rw [h.size, getIdx, h.locMap, h.destMap, h.oriented]
  rcases h.names with ⟨rfl, hc, hr⟩ | ⟨rfl, hc, hr⟩
  · rw [hc, hr]
    exact ⟨_, rfl, Grid.position_lt hdest hloc⟩
  · rw [hc, hr]
    exact ⟨_, rfl, Grid.position_lt hloc hdest⟩

/-- Pairs of the names have their own index each. -/
theorem getIdx_inj (h : mat.Holds orientation locs dests) {loc' dest' : String} (hl : loc ∈ locs)
    (hd : dest ∈ dests) (hl' : loc' ∈ locs) (hd' : dest' ∈ dests)
    (heq : mat.getIdx loc dest = mat.getIdx loc' dest') : loc = loc' ∧ dest = dest' := by
  have hloc := readIdx_lt h.locs_nodup h.locs_ne
  have hdest := readIdx_lt h.dests_nodup h.dests_ne
  simp only [getIdx, h.locMap, h.destMap, h.oriented] at heq
  rcases h.names with ⟨rfl, hc, _⟩ | ⟨rfl, hc, _⟩
  · simp only [hc] at heq
    obtain ⟨hr, hc⟩ := Grid.position_inj (hloc loc) (hloc loc') (Int.ofNat.inj heq)
    exact ⟨readIdx_inj h.locs_nodup hl hl' hc, readIdx_inj h.dests_nodup hd hd' hr⟩
  · simp only [hc] at heq
    obtain ⟨hr, hc⟩ := Grid.position_inj (hdest dest) (hdest dest') (Int.ofNat.inj heq)
    exact ⟨readIdx_inj h.locs_nodup hl hl' hr, readIdx_inj h.dests_nodup hd hd' hc⟩

theorem valueOf_eq (h : mat.Holds orientation locs dests) {i : Nat} (hi : mat.getIdx loc dest = i) :
    mat.valueOf loc dest = (mat.dataStore[i]?).join := by
  have hvalue : (if mat.getIdx loc dest < 0 ∨ mat.dataStore.length ≤ mat.getIdx loc dest then none
      else (mat.dataStore[(mat.getIdx loc dest).toNat]?).join) = (mat.dataStore[i]?).join := by
    rw [hi, Int.toNat_natCast]
    split_ifs with hout
    · rw [List.getElem?_eq_none (by omega)]
      rfl
    · rfl
  rw [← hvalue]
  rcases h.names with ⟨rfl, _⟩ | ⟨rfl, _⟩ <;> simp only [valueOf, getValue, h.oriented]

/-- What a write does to the slice. -/
theorem writeSample_eq (h : mat.Holds orientation locs dests) (loc dest : String) (val : V) :
    mat.writeSample loc dest val =
      { mat with dataStore := mat.dataStore.set (mat.getIdx loc dest).toNat (some val) } := by
  obtain ⟨i, hi, _⟩ := getIdx_inside h loc dest
  rw [writeSample]
  exact if_pos (by omega)

theorem Holds.writeSample (h : mat.Holds orientation locs dests) (loc dest : String) (val : V) :
    (mat.writeSample loc dest val).Holds orientation locs dests := by
  rw [writeSample_eq h]
  exact { h with size := by rw [List.length_set]; exact h.size }

/-- What a write does to a pair, whatever the names. -/
theorem valueOf_writeSample (h : mat.Holds orientation locs dests) (loc dest : String) (val : V)
    (l d : String) : (mat.writeSample loc dest val).valueOf l d =
      if mat.getIdx l d = mat.getIdx loc dest then some val else mat.valueOf l d := by
  obtain ⟨i, hi, hlt⟩ := getIdx_inside h loc dest
  obtain ⟨j, hj, _⟩ := getIdx_inside h l d
  have hj' : (mat.writeSample loc dest val).getIdx l d = j := by
    rw [writeSample_eq h]
    exact hj
  rw [valueOf_eq (h.writeSample loc dest val) hj', valueOf_eq h hj, writeSample_eq h, hi, hj,
    Int.toNat_natCast, List.getElem?_set]
  by_cases hij : j = i
  · subst hij
    simp [hlt]
  · rw [if_neg (Ne.symm hij), if_neg (by omega)]

end Holds

end PingMatrix

/-! ## What is promised -/

section Promised

variable {mat : PingMatrix V} {locs dests locations destinations : List String}
  {orientation : PingMatrixOrientation}

theorem holds_make (hl : (sortStrings locations).Nodup) (hd : (sortStrings destinations).Nodup)
    (hl' : ¬locations.length = 0) (hd' : ¬destinations.length = 0) {cols rows : List String}
    (ho : orientation = .tgtSrc ∧ cols = sortStrings locations ∧ rows = sortStrings destinations ∨
      orientation = .srcTgt ∧ cols = sortStrings destinations ∧ rows = sortStrings locations) :
    (PingMatrix.make orientation (sortStrings locations) (sortStrings destinations) cols rows :
      PingMatrix V).Holds orientation (sortStrings locations) (sortStrings destinations) where
  locs_nodup := hl
  dests_nodup := hd
  locs_ne := by rwa [Ne, ← List.length_eq_zero_iff, length_sortStrings]
  dests_ne := by rwa [Ne, ← List.length_eq_zero_iff, length_sortStrings]
  locMap := rfl
  destMap := rfl
  oriented := rfl
  names := ho
  size := List.length_replicate

/-- What `NewPingMatrix` makes. -/
theorem newPingMatrix_eq_ok (h : newPingMatrix locations destinations orientation = .ok mat) :
    mat.Holds orientation (sortStrings locations) (sortStrings destinations) ∧
      mat.dataStore = List.replicate mat.dataStore.length none := by
  have hnodup : ∀ s, ¬checkSortedStringsDup (sortStrings s) = true → (sortStrings s).Nodup :=
    fun s hs => nodup_of_checkSortedStringsDup (sorted_sortStrings s) (Bool.not_eq_true _ ▸ hs)
  cases orientation with
  | tgtSrc =>
    simp only [newPingMatrix] at h
    split_ifs at h with hl hd hcol hrow
    cases h
    exact ⟨holds_make (hnodup _ hcol) (hnodup _ hrow) hl hd (Or.inl ⟨rfl, rfl, rfl⟩),
      by rw [PingMatrix.make, List.length_replicate]⟩
  | srcTgt =>
    simp only [newPingMatrix] at h
    split_ifs at h with hl hd hcol hrow
    cases h
    exact ⟨holds_make (hnodup _ hrow) (hnodup _ hcol) hl hd (Or.inr ⟨rfl, rfl, rfl⟩),
      by rw [PingMatrix.make, List.length_replicate]⟩
  | other text =>
    simp only [newPingMatrix] at h
    split_ifs at h

theorem holds_newPingMatrix (h : newPingMatrix locations destinations orientation = .ok mat) :
    mat.Holds orientation (sortStrings locations) (sortStrings destinations) :=
  (newPingMatrix_eq_ok h).1

theorem valueOf_newPingMatrix (h : newPingMatrix locations destinations orientation = .ok mat)
    (loc dest : String) : mat.valueOf loc dest = none := by
  obtain ⟨hm, hs⟩ := newPingMatrix_eq_ok h
  obtain ⟨i, hi, hlt⟩ := PingMatrix.getIdx_inside hm loc dest
  rw [PingMatrix.valueOf_eq hm hi, hs, List.getElem?_replicate, if_pos hlt]
  rfl

theorem holds_writeSamples (h : mat.Holds orientation locs dests)
    (samples : List (String × String × V)) :
    (mat.writeSamples samples).Holds orientation locs dests := by
  induction samples generalizing mat with
  | nil => exact h
  | cons s samples ih => exact ih (h.writeSample s.1 s.2.1 s.2.2)

/-- What is promised of a matrix with these names, and of a write to it. -/
structure Stores (locations destinations : List String) (mat : PingMatrix V) (loc dest : String)
    (val : V) : Prop where
  inside : ∀ l ∈ locations, ∀ d ∈ destinations,
    0 ≤ mat.getIdx l d ∧ mat.getIdx l d < mat.dataStore.length
  distinct : ∀ l ∈ locations, ∀ d ∈ destinations, ∀ l' ∈ locations, ∀ d' ∈ destinations,
    (l, d) ≠ (l', d') → mat.getIdx l d ≠ mat.getIdx l' d'
  written : loc ∈ locations → dest ∈ destinations →
    (mat.writeSample loc dest val).valueOf loc dest = some val
  frame : loc ∈ locations → dest ∈ destinations → ∀ l ∈ locations, ∀ d ∈ destinations,
    (l, d) ≠ (loc, dest) → (mat.writeSample loc dest val).valueOf l d = mat.valueOf l d
  unknown : ¬(loc ∈ locations ∧ dest ∈ destinations) →
    mat.writeSample loc dest val = mat ∧ mat.valueOf loc dest = none

/-- After any samples a write does what is promised exactly if both names are of the matrix. -/
theorem stores_iff (h : newPingMatrix locations destinations orientation = .ok mat)
    (samples : List (String × String × V)) (loc dest : String) (val : V) :
    Stores locations destinations (mat.writeSamples samples) loc dest val ↔
      loc ∈ locations ∧ dest ∈ destinations := by
  have hm := holds_writeSamples (holds_newPingMatrix h) samples
  have hinj : ∀ l ∈ locations, ∀ d ∈ destinations, ∀ l' ∈ locations, ∀ d' ∈ destinations,
      (l, d) ≠ (l', d') →
        (mat.writeSamples samples).getIdx l d ≠ (mat.writeSamples samples).getIdx l' d' := by
    intro l hl d hd l' hl' d' hd' hne heq
    obtain ⟨rfl, rfl⟩ := PingMatrix.getIdx_inj hm (mem_sortStrings.2 hl) (mem_sortStrings.2 hd)
      (mem_sortStrings.2 hl') (mem_sortStrings.2 hd') heq
    exact hne rfl
  have hself : ((mat.writeSamples samples).writeSample loc dest val).valueOf loc dest =
      some val := by
    rw [PingMatrix.valueOf_writeSample hm, if_pos rfl]
  constructor
  · intro hs
    by_contra hnot
    obtain ⟨hsame, hnone⟩ := hs.unknown hnot
    rw [hsame, hnone] at hself
    cases hself
  · rintro ⟨hl, hd⟩
    exact
      { inside := by
          intro l _ d _
          obtain ⟨i, hi, hlt⟩ := PingMatrix.getIdx_inside hm l d
          omega
        distinct := hinj
        written := fun _ _ => hself
        frame := by
          intro _ _ l hl' d hd' hne
          rw [PingMatrix.valueOf_writeSample hm, if_neg (hinj l hl' d hd' loc hl dest hd hne)]
        unknown := fun hnot => absurd ⟨hl, hd⟩ hnot }

theorem newPingMatrix_pair : newPingMatrix ["a"] ["b"] .srcTgt =
    .ok (.make .srcTgt ["a"] ["b"] ["b"] ["a"] : PingMatrix V) := by
  simp [newPingMatrix, sortStrings, checkSortedStringsDup]

theorem stores_iff_pair : ∃ mat : PingMatrix Nat, newPingMatrix ["a"] ["b"] .srcTgt = .ok mat ∧
    Stores ["a"] ["b"] (mat.writeSamples [("x", "b", 5)]) "a" "b" 7 :=
  ⟨_, newPingMatrix_pair, (stores_iff newPingMatrix_pair [("x", "b", 5)] "a" "b" 7).2
    ⟨List.mem_singleton.2 rfl, List.mem_singleton.2 rfl⟩⟩

/-- A pair of other names is read and written as the first pair. -/
theorem unknown_name_stored : ∃ mat : PingMatrix Nat,
    newPingMatrix ["a"] ["b"] .srcTgt = .ok mat ∧
      (mat.writeSamples [("a", "b", 5)]).valueOf "x" "y" = some 5 ∧
      (mat.writeSamples [("a", "b", 5), ("x", "y", 0)]).valueOf "a" "b" = some 0 ∧
      ¬Stores ["a"] ["b"] (mat.writeSamples [("a", "b", 5)]) "x" "y" 0 := by
  have hread : ((PingMatrix.make .srcTgt ["a"] ["b"] ["b"] ["a"] : PingMatrix Nat).writeSamples
      [("a", "b", 5)]).valueOf "x" "y" = some 5 := by decide
  refine ⟨_, newPingMatrix_pair, hread, by decide, fun hs => ?_⟩
  cases hread.symm.trans (hs.unknown (by decide)).2

end Promised

end CloudPing.Tui
