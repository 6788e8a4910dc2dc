import Linkage.Console.Assistant
import Linkage.Proofs.Table
import Linkage.Store.Basic
import Mathlib.Data.List.Infix

/-!
# Completing the word before the cursor

The cursor stands at a byte offset between two characters.  The word before it is the longest end of the
text before it that holds no blank, and what is offered is each command and each registered module that
begins with the word.  The word is cut off one byte behind the last blank: behind a blank that takes more
than one byte this is inside a character, and nothing is offered.

* `behindOffset?_add` : cutting behind a text that is in front.
* `IsLastWord`, `isLastWord_lastWordChars` : the word before the cursor.
* `behindOffset?_wordStart` : when the word is cut off.
* `exists_completions` : what is offered for a word; no candidate is cut inside a character.
* `completions_begin_with_word` : all of it.
-/

namespace Linkage.Store

theorem mem_ids_iff {store : Store} {id : ModuleId} : id ∈ store.ids ↔ store.contains id = true := by
  unfold ids contains lookup?
  rw [← Table.mem_keys_iff, List.mem_map]
  constructor
  · rintro ⟨key, hkey, rfl⟩
    exact hkey
  · exact fun hkey => ⟨id.text, hkey, rfl⟩

theorem pairwise_ids (store : Store) : store.ids.Pairwise (·.text < ·.text) :=
  List.pairwise_map.mpr store.registry.pairwise_keys

end Linkage.Store

namespace Linkage.Console

open Text (isBlank)

/-! ## Byte offsets -/

theorem utf8ByteSize_ofList_nil : (String.ofList []).utf8ByteSize = 0 :=
  String.utf8ByteSize_eq_zero_iff.mpr String.ofList_nil

theorem utf8ByteSize_ofList_cons (c : Char) (cs : List Char) :
    (String.ofList (c :: cs)).utf8ByteSize = c.utf8Size + (String.ofList cs).utf8ByteSize := by
  have hcons : String.ofList (c :: cs) = String.singleton c ++ String.ofList cs := by
    rw [String.singleton_eq_ofList, ← String.ofList_append, List.singleton_append]
  rw [hcons, String.utf8ByteSize_append, String.utf8ByteSize_singleton]

theorem beforeOffset?_append (front back : List Char) :
    beforeOffset? (String.ofList front).utf8ByteSize (front ++ back) = some front := by
  induction front with
  | nil => rw [utf8ByteSize_ofList_nil, beforeOffset?]
  | cons c front ih =>
      obtain ⟨size, hsize⟩ := Nat.exists_eq_add_one_of_ne_zero
        (Nat.ne_of_gt (Nat.add_pos_left c.utf8Size_pos (String.ofList front).utf8ByteSize))
      have hfits : c.utf8Size ≤ size + 1 := hsize ▸ Nat.le_add_right _ _
      have hrest : size + 1 - c.utf8Size = (String.ofList front).utf8ByteSize := by omega
      rw [utf8ByteSize_ofList_cons, hsize, List.cons_append, beforeOffset?, if_pos hfits, hrest, ih]
      rfl

/-- An offset behind a text that is in front counts from there. -/
theorem behindOffset?_add (front back : List Char) (offset : Nat) :
    behindOffset? ((String.ofList front).utf8ByteSize + offset) (front ++ back) =
      behindOffset? offset back := by
  induction front with
  | nil => rw [utf8ByteSize_ofList_nil, Nat.zero_add, List.nil_append]
  | cons c front ih =>
      obtain ⟨size, hsize⟩ := Nat.exists_eq_add_one_of_ne_zero (Nat.ne_of_gt
        (Nat.add_pos_left c.utf8Size_pos ((String.ofList front).utf8ByteSize + offset)))
      have hfits : c.utf8Size ≤ size + 1 := hsize ▸ Nat.le_add_right _ _
      have hrest : size + 1 - c.utf8Size = (String.ofList front).utf8ByteSize + offset := by omega
      rw [utf8ByteSize_ofList_cons, Nat.add_assoc, hsize, List.cons_append, behindOffset?,
        if_pos hfits, hrest, ih]

theorem behindOffset?_zero (cs : List Char) : behindOffset? 0 cs = some cs := by
  cases cs <;> rfl

theorem behindOffset?_append (front back : List Char) :
    behindOffset? (String.ofList front).utf8ByteSize (front ++ back) = some back := by
  rw [← Nat.add_zero (String.ofList front).utf8ByteSize, behindOffset?_add, behindOffset?_zero]

/-- One byte into a character is behind it only if it takes no more. -/
theorem behindOffset?_one (c : Char) (rest : List Char) :
    behindOffset? 1 (c :: rest) = if c.utf8Size = 1 then some rest else none := by
  have hpos := c.utf8Size_pos
  rw [behindOffset?]
  by_cases hone : c.utf8Size = 1
  · rw [if_pos hone, if_pos hone.le, hone, behindOffset?_zero]
  · rw [if_neg hone, if_neg (by omega)]

/-! ## The last word -/

/-- The characters at the end of a text that are not blank. -/
def lastWordChars (cs : List Char) : List Char :=
  (cs.reverse.takeWhile (fun c => !isBlank c)).reverse

/-- The longest end of a text that holds no blank. -/
structure IsLastWord (before word : List Char) : Prop where
  /-- It ends the text. -/
  isSuffix : word <:+ before
  /-- It holds no blank. -/
  solid : ∀ c ∈ word, isBlank c = false
  /-- Every end without blanks is a part of it. -/
  longest : ∀ other, other <:+ before → (∀ c ∈ other, isBlank c = false) → other <:+ word

/-- A word behind a blank that takes more than one byte. -/
def FollowsWideBlank (before word : List Char) : Prop :=
  ∃ front blank, before = front ++ blank :: word ∧ isBlank blank = true ∧ 1 < blank.utf8Size

variable {before word : List Char}

/-- What stands behind the last blank of a text is its last word. -/
theorem isLastWord_append {front : List Char} {blank : Char} (hblank : isBlank blank = true)
    (hsolid : ∀ c ∈ word, isBlank c = false) : IsLastWord (front ++ blank :: word) word := by
  have hword : word <:+ front ++ blank :: word := ⟨front ++ [blank], by simp⟩
  refine ⟨hword, hsolid, fun other hother hsolid' => ?_⟩
  -- of two ends of one text one is an end of the other, and a longer one would hold the blank
  rcases List.suffix_or_suffix_of_suffix hother hword with hshort | ⟨more, rfl⟩
  · exact hshort
  · rcases List.eq_nil_or_concat more with rfl | ⟨more, last, rfl⟩
    · exact List.suffix_rfl
    · obtain ⟨start, hstart⟩ := hother
      have hsame : (start ++ more) ++ last :: word = front ++ blank :: word := by simpa using hstart
      obtain rfl := (List.cons.inj (List.append_inj' hsame rfl).2).1
      have hheld := hsolid' last (by simp)
      rw [hblank] at hheld
      cases hheld

theorem solid_lastWordChars (before : List Char) :
    ∀ c ∈ lastWordChars before, isBlank c = false := by
  intro c hc
  rw [lastWordChars, List.mem_reverse] at hc
  simpa using List.all_eq_true.mp List.all_takeWhile c hc

/-- A text is one word, or its last word stands behind a blank. -/
theorem lastWordChars_cases (before : List Char) :
    lastWordChars before = before ∧ wordStart before = 0 ∨
      ∃ front blank, before = front ++ blank :: lastWordChars before ∧ isBlank blank = true ∧
        wordStart before = (String.ofList front).utf8ByteSize + 1 := by
  have hcut := List.takeWhile_append_dropWhile (p := fun c => !isBlank c) (l := before.reverse)
  have hfirst := List.head?_dropWhile_not (fun c => !isBlank c) before.reverse
  unfold lastWordChars wordStart
  cases hrest : before.reverse.dropWhile (fun c => !isBlank c) with
  | nil =>
      rw [hrest, List.append_nil] at hcut
      rw [hcut, List.reverse_reverse]
      exact .inl ⟨rfl, rfl⟩
  | cons blank front =>
      rw [hrest] at hcut hfirst
      have hbefore := congrArg List.reverse hcut
      rw [List.reverse_reverse, List.reverse_append, List.reverse_cons, List.append_assoc,
        List.singleton_append] at hbefore
      exact .inr ⟨front.reverse, blank, hbefore.symm, by simpa using hfirst, rfl⟩

theorem isLastWord_lastWordChars (before : List Char) :
    IsLastWord before (lastWordChars before) := by
  have hsolid := solid_lastWordChars before
  rcases lastWordChars_cases before with ⟨hall, -⟩ | ⟨front, blank, hbefore, hblank, -⟩
  · rw [hall] at hsolid ⊢
    exact ⟨List.suffix_rfl, hsolid, fun other hother _ => hother⟩
  · generalize lastWordChars before = word at hbefore hsolid ⊢
    rw [hbefore]
    exact isLastWord_append hblank hsolid

/-- The word is cut off unless it stands behind a wide blank. -/
theorem behindOffset?_wordStart (before : List Char) :
    (FollowsWideBlank before (lastWordChars before) →
      behindOffset? (wordStart before) before = none) ∧
    (¬ FollowsWideBlank before (lastWordChars before) →
      behindOffset? (wordStart before) before = some (lastWordChars before)) := by
  rcases lastWordChars_cases before with ⟨hall, hstart⟩ | ⟨front, blank, hbefore, hblank, hstart⟩
  · have hfront : ¬ FollowsWideBlank before (lastWordChars before) := by
      rintro ⟨front, blank, hbefore, -⟩
      have hlength := congrArg List.length hbefore
      rw [hall, List.length_append, List.length_cons] at hlength
      omega
    refine ⟨fun hwide => absurd hwide hfront, fun _ => ?_⟩
    rw [hstart, hall, behindOffset?_zero]
  · have hcut : behindOffset? (wordStart before) before =
        if blank.utf8Size = 1 then some (lastWordChars before) else none := by
      rw [hstart]
      generalize lastWordChars before = word at hbefore ⊢
      rw [hbefore, behindOffset?_add, behindOffset?_one]
    rw [hcut]
    constructor
    · rintro ⟨front', blank', hbefore', -, hwide⟩
      obtain rfl := (List.cons.inj (List.append_inj' (hbefore.symm.trans hbefore') rfl).2).1
      exact if_neg hwide.ne'
    · intro hnarrow
      have hpos := blank.utf8Size_pos
      refine if_pos (Nat.le_antisymm (Nat.not_lt.mp fun hwide => ?_) hpos)
      exact hnarrow ⟨front, blank, hbefore, hblank, hwide⟩

/-! ## What is offered -/

theorem mapM_eq_some_map {α β : Type} {f : α → Option β} {g : α → β} {items : List α}
    (hgives : ∀ item ∈ items, f item = some (g item)) : items.mapM f = some (items.map g) := by
  induction items with
  | nil => rfl
  | cons item rest ih =>
      rw [List.mapM_cons, hgives item List.mem_cons_self,
        ih (fun other hother => hgives other (List.mem_cons_of_mem _ hother))]
      rfl

/-- The candidates that begin with a word are offered with the rest of each; none for no word. -/
theorem exists_completions (word : List Char) (ids : List ModuleId) :
    ∃ pairs, completions? word ids = some pairs ∧
      pairs.map (·.1) = (if word = [] then []
        else (Command.names ++ ids.map (·.text)).filter (fun candidate =>
          word.isPrefixOf candidate.toList)) ∧
      ∀ pair ∈ pairs, String.ofList word ++ pair.2 = pair.1 := by
  unfold completions?
  by_cases hempty : word = []
  · rw [hempty]
    exact ⟨[], rfl, rfl, nofun⟩
  · rw [if_neg (by simpa using hempty), if_neg hempty]
    generalize Command.names ++ ids.map (·.text) = candidates
    have hbegins : ∀ candidate ∈ candidates.filter (fun candidate =>
        word.isPrefixOf candidate.toList), ∃ rest, word ++ rest = candidate.toList :=
      fun candidate hmem => List.isPrefixOf_iff_prefix.mp (List.mem_filter.mp hmem).2
    refine ⟨_, mapM_eq_some_map (g := fun candidate =>
      (candidate, String.ofList (candidate.toList.drop word.length))) (fun candidate hmem => ?_), ?_,
      fun pair hpair => ?_⟩
    · obtain ⟨rest, hrest⟩ := hbegins candidate hmem
      rw [← hrest, behindOffset?_append, List.drop_left]
      rfl
    · rw [List.map_map]
      exact List.map_id _
    · obtain ⟨candidate, hmem, rfl⟩ := List.mem_map.mp hpair
      obtain ⟨rest, hrest⟩ := hbegins candidate hmem
      rw [← hrest, List.drop_left, ← String.ofList_append, hrest, String.ofList_toList]

/-- At a cursor between two characters the commands and then the registered modules in order are offered
that begin with the last word before it, each with what it has behind the word, and none for no word.
Behind a blank of more than one byte the word cannot be cut off, and there is no answer. -/
theorem completions_begin_with_word (store : Store) {line : String} {cursor : Nat}
    (hcursor : (String.Pos.Raw.mk cursor).IsValid line) :
    ∃ (before after : String) (word : List Char), line = before ++ after ∧
      before.utf8ByteSize = cursor ∧ IsLastWord before.toList word ∧
      (FollowsWideBlank before.toList word → complete? line cursor store.ids = none) ∧
      (¬ FollowsWideBlank before.toList word → ∃ pairs, complete? line cursor store.ids = some pairs ∧
        pairs.map (·.1) = (if word = [] then []
          else (Command.names ++ store.ids.map (·.text)).filter (fun candidate =>
            word.isPrefixOf candidate.toList)) ∧
        ∀ pair ∈ pairs, String.ofList word ++ pair.2 = pair.1) ∧
      store.ids.Pairwise (·.text < ·.text) ∧ ∀ id, id ∈ store.ids ↔ store.contains id = true := by
  obtain ⟨before, after, rfl, hsize⟩ := String.Pos.Raw.isValid_iff_exists_append.mp hcursor
  obtain rfl : cursor = before.utf8ByteSize := congrArg String.Pos.Raw.byteIdx hsize
  have hbefore : beforeOffset? before.utf8ByteSize (before ++ after).toList = some before.toList := by
    have happend := beforeOffset?_append before.toList after.toList
    rwa [String.ofList_toList, ← String.toList_append] at happend
  obtain ⟨hwide, hnarrow⟩ := behindOffset?_wordStart before.toList
  refine ⟨before, after, lastWordChars before.toList, rfl, rfl, isLastWord_lastWordChars _, ?_, ?_,
    store.pairwise_ids, fun _ => Store.mem_ids_iff⟩
  · intro hfollows
    rw [complete?, hbefore, Option.bind_eq_bind, Option.bind_some, hwide hfollows]
    rfl
  · intro hfollows
    rw [complete?, hbefore, Option.bind_eq_bind, Option.bind_some, hnarrow hfollows]
    exact exists_completions _ _

/-- A text with blanks of one and of more bytes, where the last one before the word is narrow. -/
theorem completions_begin_with_word_narrow :
    let ids := ((Store.empty.getOrCreate (.ofPath "/é.mjs") .modern).2.getOrCreate
      (.ofPath "/x.cjs") .legacy).2.ids
    (String.Pos.Raw.mk 11).IsValid "x\u3000y\t/é.m rest" ∧
    complete? "x\u3000y\t/é.m rest" 11 ids = some [("/é.mjs", "js")] ∧
    ∃ word, String.ofList word ++ "js" = "/é.mjs" := by
  intro ids
  have hcursor : (String.Pos.Raw.mk 11).IsValid "x\u3000y\t/é.m rest" :=
    String.Pos.Raw.isValid_iff_exists_append.mpr ⟨"x\u3000y\t/é.m", " rest", by decide, by decide⟩
  have hpairs : complete? "x\u3000y\t/é.m rest" 11 ids = some [("/é.mjs", "js")] := by
    decide +kernel
  obtain ⟨before, after, word, -, -, -, hwide, hnarrow, -⟩ :=
    completions_begin_with_word ((Store.empty.getOrCreate (.ofPath "/é.mjs") .modern).2.getOrCreate
      (.ofPath "/x.cjs") .legacy).2 hcursor
  obtain ⟨pairs, hfound, -, hrest⟩ := hnarrow (fun hfollows => by
    cases hpairs.symm.trans (hwide hfollows))
  obtain rfl := Option.some.inj (hpairs.symm.trans hfound)
  exact ⟨hcursor, hpairs, word, hrest _ List.mem_cons_self⟩

/-- Behind an ideographic space nothing is offered, though a command begins with the word. -/
theorem nothing_completes_behind_wide_blank :
    (String.Pos.Raw.mk 5).IsValid "\u3000.h" ∧ ".help" ∈ Command.names ∧
    complete? "\u3000.h" 5 Store.empty.ids = none :=
  ⟨String.Pos.Raw.isValid_iff_exists_append.mpr ⟨"\u3000.h", "", by decide, by decide⟩,
    by decide +kernel, by decide +kernel⟩

end Linkage.Console
