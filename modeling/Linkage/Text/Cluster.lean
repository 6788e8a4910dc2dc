import Linkage.Text.ClusterClass

/-!
# Clusters

A cluster is what a reader takes for one character: a character with the marks on it, a Hangul
syllable, a flag, a row of joined pictures, consonants fused by a linker.  Whether a character goes
on with a cluster depends on the classes of the characters before it in the cluster alone.  Main
statements: nothing is lost (`flatten_clusters`), and no cluster is empty
(`ne_nil_of_mem_clusters`).
-/

namespace Linkage.Text

namespace ClusterClass

/-- Whether a character is a mark on the one before it. -/
def isMark : ClusterClass → Bool
  | extend | linker | nonJoiner => true
  | _ => false

/-- Whether a mark leaves a consonant ready to be fused. -/
def isTransparent : ClusterClass → Bool
  | extend | linker | joiner => true
  | _ => false

/-- Whether a cluster fuses with a consonant: it ends in a consonant under marks, one of them a
linker. -/
def fusesConsonant (cluster : List ClusterClass) : Bool :=
  (cluster.takeWhile isTransparent).contains linker &&
    (cluster.dropWhile isTransparent).head? == some consonant

/-- Whether a cluster fuses with a picture: it ends in a picture, its marks and a joiner. -/
def fusesPicture : List ClusterClass → Bool
  | joiner :: before => (before.dropWhile isMark).head? == some pictograph
  | _ => false

/-- Whether a cluster ends in the first half of a flag. -/
def awaitsHalf (cluster : List ClusterClass) : Bool :=
  (cluster.takeWhile (· == regional)).length % 2 == 1

/-- Whether a character goes on with a cluster, whose classes stand last first. -/
def joins (cluster : List ClusterClass) (next : ClusterClass) : Bool :=
  match cluster.head?.getD control, next with
  | carriageReturn, lineFeed => true
  | carriageReturn, _ | lineFeed, _ | control, _ => false
  | _, carriageReturn | _, lineFeed | _, control => false
  | leading, leading | leading, vowel | leading, openSyllable | leading, closedSyllable => true
  | openSyllable, vowel | openSyllable, trailing | vowel, vowel | vowel, trailing => true
  | closedSyllable, trailing | trailing, trailing => true
  | _, extend | _, linker | _, nonJoiner | _, joiner | _, spacing => true
  | prepend, _ => true
  | _, consonant => fusesConsonant cluster
  | _, pictograph => fusesPicture cluster
  | _, regional => awaitsHalf cluster
  | _, _ => false

/-- A control character goes on with no cluster. -/
theorem joins_control (cluster : List ClusterClass) : joins cluster control = false := by
  unfold joins
  split <;> simp_all

/-- Nothing goes on with a control character. -/
theorem joins_behind_control (cluster : List ClusterClass) (next : ClusterClass) :
    joins (control :: cluster) next = false := by
  simp [joins]

/-- A backspace is a control character, so it is a cluster of its own. -/
theorem ofChar_backspace : ofChar '\x08' = control := by decide

end ClusterClass

/-- A character with its class. -/
abbrev Classed : Type := Char × ClusterClass

/-- The clusters of characters that follow an unfinished one, which stands reversed in `cluster`. -/
def clustersBehind (cluster : List Classed) : List Classed → List (List Char)
  | [] => [(cluster.map Prod.fst).reverse]
  | next :: rest =>
      if ClusterClass.joins (cluster.map Prod.snd) next.2 then clustersBehind (next :: cluster) rest
      else (cluster.map Prod.fst).reverse :: clustersBehind [next] rest

/-- Cut characters into clusters. -/
def clusters (cs : List Char) : List (List Char) :=
  match cs.map (fun c => (c, ClusterClass.ofChar c)) with
  | [] => []
  | first :: rest => clustersBehind [first] rest

theorem flatten_clustersBehind (cluster rest : List Classed) :
    (clustersBehind cluster rest).flatten =
      (cluster.map Prod.fst).reverse ++ rest.map Prod.fst := by
  induction rest generalizing cluster with
  | nil => simp [clustersBehind]
  | cons next rest ih =>
      unfold clustersBehind
      split
      · simp [ih]
      · simp [ih]

theorem flatten_clusters (cs : List Char) : (clusters cs).flatten = cs := by
  cases cs with
  | nil => rfl
  | cons c rest =>
      simp [clusters, flatten_clustersBehind, Function.comp_def]

theorem ne_nil_of_mem_clustersBehind {cluster rest : List Classed} (begun : cluster ≠ [])
    {found : List Char} (member : found ∈ clustersBehind cluster rest) : found ≠ [] := by
  induction rest generalizing cluster with
  | nil =>
      rw [clustersBehind, List.mem_singleton] at member
      simpa [member] using begun
  | cons next rest ih =>
      unfold clustersBehind at member
      split at member
      · exact ih (by simp) member
      · rcases List.mem_cons.mp member with same | later
        · simpa [same] using begun
        · exact ih (by simp) later

theorem ne_nil_of_mem_clusters {cs found : List Char} (member : found ∈ clusters cs) :
    found ≠ [] := by
  unfold clusters at member
  split at member
  · simp at member
  · exact ne_nil_of_mem_clustersBehind (by simp) member

end Linkage.Text
