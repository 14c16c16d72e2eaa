import SqlJson.Proofs.Path.Cache

/-!
# What a path cache keeps

A request for a path makes its text the most recent one, if the text is a path; else it leaves the cache alone. So
the cache keeps the texts that were requested last, each of them once, and as many as it has room for.

* `Use`, `after`: requests and clearings, and the cache after a history of them.
* `get_snd`: what one request does to a cache.
* `good`: the paths that were requested since the cache was cleared, with repetitions.
* `texts_after`: the texts in the cache, after any history.
* `mem_take_eraseDups`: which of the texts are among the most recent ones.
* `keeps_most_recent`: all of it.
-/

namespace SqlJson.PathCache

variable {maxSteps c : ℕ} {cache : PathCache} {text a : String} {path : Path} {error : Error} {l : List String}

/-! ## Texts without repetitions -/

/-- Texts can be left out before or after repetitions are. -/
theorem eraseDups_filter (p : String → Bool) : ∀ l : List String, (l.filter p).eraseDups = l.eraseDups.filter p
  | [] => rfl
  | a :: rest => by
    have hlength : (rest.filter (!· == a)).length < rest.length + 1 :=
      Nat.lt_succ_of_le (List.length_filter_le _ rest)
    rw [List.eraseDups_cons]
    by_cases hp : p a = true
    · rw [List.filter_cons_of_pos hp, List.filter_cons_of_pos hp, List.eraseDups_cons, List.filter_comm,
        eraseDups_filter p (rest.filter (!· == a))]
    · have hrest : (rest.filter (!· == a)).filter p = rest.filter p := by
        rw [List.filter_filter]
        refine List.filter_congr fun b _ => ?_
        by_cases hb : b = a
        · simp [hb, hp]
        · simp [hb]
      rw [List.filter_cons_of_neg hp, List.filter_cons_of_neg hp, ← eraseDups_filter p (rest.filter (!· == a)), hrest]
termination_by l => l.length

theorem nodup_eraseDups (l : List String) : l.eraseDups.Nodup := by
  induction l with
  | nil => exact List.nodup_nil
  | cons a rest ih =>
    rw [List.eraseDups_cons, eraseDups_filter, List.nodup_cons]
    exact ⟨by simp, ih.filter _⟩

/-- A text that comes first takes the place of all others like it. -/
theorem eraseDups_cons_eq (a : String) (l : List String) : (a :: l).eraseDups = a :: l.eraseDups.erase a := by
  rw [List.eraseDups_cons, eraseDups_filter, (nodup_eraseDups l).erase_eq_filter]
  rfl

theorem length_eraseDups (l : List String) : l.eraseDups.length = l.toFinset.card := by
  rw [← List.toFinset_card_of_nodup (nodup_eraseDups l)]
  congr 1
  ext a
  simp

/-- What gives way to a text that comes first may give way before or after the others are cut to a length. -/
theorem take_cons_erase (a : String) (l : List String) (c : ℕ) :
    (a :: (l.take c).erase a).take c = (a :: l.erase a).take c := by
  cases c with
  | zero => rfl
  | succ c =>
    rw [List.take_succ_cons, List.take_succ_cons]
    congr 1
    induction l generalizing c with
    | nil => rfl
    | cons b rest ih =>
      rw [List.take_succ_cons, List.erase_cons, List.erase_cons]
      split_ifs
      · rw [List.take_take, min_self]
      · cases c with
        | zero => rfl
        | succ c => rw [List.take_succ_cons, List.take_succ_cons, ih]

/-- **A text is among the first `c`** iff it is there, and fewer than `c` others stand in front of it. -/
theorem mem_take_eraseDups : a ∈ l.eraseDups.take c ↔ a ∈ l ∧ (l.takeWhile (· ≠ a)).toFinset.card < c := by
  by_cases ha : a ∈ l
  · obtain ⟨before, after, rfl, hbefore⟩ := List.eq_append_cons_of_mem ha
    have hwhile : (before ++ a :: after).takeWhile (· ≠ a) = before := by
      rw [List.takeWhile_append_of_pos, List.takeWhile_cons_of_neg (by simp), List.append_nil]
      intro b hb
      exact decide_eq_true (ne_of_mem_of_not_mem hb hbefore)
    have hrest : (a :: after).removeAll before = a :: after.removeAll before := by
      simp [List.removeAll, hbefore]
    have hfront : a ∉ before.eraseDups.take c := fun hmem => hbefore (List.mem_eraseDups.1 (List.mem_of_mem_take hmem))
    rw [hwhile, ← length_eraseDups, List.eraseDups_append, hrest, List.eraseDups_cons, List.take_append,
      List.mem_append, or_iff_right hfront]
    cases hroom : c - before.eraseDups.length with
    | zero =>
      rw [List.take_zero]
      exact iff_of_false List.not_mem_nil (by omega)
    | succ room =>
      rw [List.take_succ_cons]
      exact iff_of_true List.mem_cons_self ⟨ha, by omega⟩
  · refine iff_of_false ?_ fun h => ha h.1
    exact fun hmem => ha (List.mem_eraseDups.1 (List.mem_of_mem_take hmem))

/-! ## One request -/

/-- The texts of the paths that are kept, the most recently used one first. -/
def texts (cache : PathCache) : List String := cache.entries.map (·.1)

theorem texts_touch (cache : PathCache) (text : String) (path : Path) :
    (cache.touch text path).texts = (text :: cache.texts.erase text).take cache.capacity := by
  have herase : (cache.entries.eraseP (·.1 = text)).map (·.1) = cache.texts.erase text := by
    rw [texts, List.erase_eq_eraseP', List.eraseP_map]
    rfl
  rw [texts, touch, List.map_take, List.map_cons, herase]

/-- **What a request does to a cache**: a text that is a path becomes the most recent one, whether it was there or
not; any other leaves the cache alone. -/
theorem get_snd (h : cache.Sound maxSteps) (text : String) :
    (cache.get text).2 =
      match Path.compile maxSteps text with
      | .ok path => cache.touch text path
      | .error _ => cache := by
  rw [get]
  cases hl : cache.entries.lookup text with
  | some path => rw [compile_of_lookup h hl]
  | none =>
    rw [h.maxSteps_eq]
    cases Path.compile maxSteps text <;> rfl

/-- **Which entry gives way.** The path of a text that was there moves to the front. A new one takes the place of no
other as long as there is room, and then of the least recent one. -/
theorem entries_get (h : cache.Sound maxSteps) (hpath : Path.compile maxSteps text = .ok path)
    (hcapacity : 0 < cache.capacity) (hsize : cache.size ≤ cache.capacity) :
    (cache.get text).2.entries = (text, path) ::
      if text ∈ cache.texts then cache.entries.eraseP (·.1 = text)
      else if cache.size < cache.capacity then cache.entries
      else cache.entries.dropLast := by
  obtain ⟨room, hroom⟩ := Nat.exists_eq_add_of_lt hcapacity
  rw [zero_add] at hroom
  rw [get_snd h, hpath]
  change ((text, path) :: cache.entries.eraseP (·.1 = text)).take cache.capacity = _
  rw [hroom, List.take_succ_cons]
  rw [hroom, size] at hsize
  rw [size]
  congr 1
  split_ifs with hmem hlt
  · obtain ⟨m, hm, rfl⟩ := List.mem_map.1 hmem
    refine List.take_of_length_le ?_
    rw [List.length_eraseP_of_mem hm (decide_eq_true rfl)]
    omega
  all_goals
    have hothers : cache.entries.eraseP (·.1 = text) = cache.entries := by
      refine List.eraseP_of_forall_not fun m hm heq => hmem ?_
      exact List.mem_map.2 ⟨m, hm, of_decide_eq_true heq⟩
    rw [hothers]
  · exact List.take_of_length_le (by omega)
  · rw [List.dropLast_eq_take]
    congr 1
    omega

/-! ## Histories -/

/-- What can be done with a cache. -/
inductive Use where
  /-- Asking for the path of a text. -/
  | request (text : String)
  /-- Dropping all entries. -/
  | clear

/-- A cache after one use. -/
def use (cache : PathCache) : Use → PathCache
  | .request text => (cache.get text).2
  | .clear => cache.clear

/-- **The cache after a history**: a new cache, and all uses of it in their order. -/
def after (capacity maxSteps : ℕ) (uses : List Use) : PathCache := uses.foldl use (empty capacity maxSteps)

/-- The texts that were requested since the cache was last cleared, the latest one first. -/
def requested (uses : List Use) : List String :=
  uses.foldl
    (fun texts use =>
      match use with
      | .request text => text :: texts
      | .clear => []) []

/-- **The good texts**: those among them that are paths. -/
def good (maxSteps : ℕ) (uses : List Use) : List String :=
  (requested uses).filter fun text => (Path.compile maxSteps text).isOk

theorem after_concat (capacity maxSteps : ℕ) (uses : List Use) (u : Use) :
    after capacity maxSteps (uses ++ [u]) = (after capacity maxSteps uses).use u :=
  List.foldl_concat ..

theorem good_concat_request (maxSteps : ℕ) (uses : List Use) (text : String) :
    good maxSteps (uses ++ [.request text]) =
      match Path.compile maxSteps text with
      | .ok _ => text :: good maxSteps uses
      | .error _ => good maxSteps uses := by
  rw [good, requested, List.foldl_concat, List.filter_cons]
  cases Path.compile maxSteps text <;> rfl

theorem good_concat_clear (maxSteps : ℕ) (uses : List Use) : good maxSteps (uses ++ [.clear]) = [] := by
  rw [good, requested, List.foldl_concat]
  rfl

/-- A use leaves a cache sound, and of the capacity that it has. -/
theorem sound_use (h : cache.Sound maxSteps) (u : Use) :
    (cache.use u).Sound maxSteps ∧ (cache.use u).capacity = cache.capacity := by
  cases u with
  | clear => exact ⟨sound_clear h, rfl⟩
  | request text =>
    refine ⟨(get_of_sound h text).2, ?_⟩
    rw [use, get_snd h]
    split <;> rfl

theorem sound_after (capacity maxSteps : ℕ) (uses : List Use) :
    (after capacity maxSteps uses).Sound maxSteps ∧ (after capacity maxSteps uses).capacity = capacity := by
  induction uses using List.reverseRecOn with
  | nil => exact ⟨sound_empty capacity maxSteps, rfl⟩
  | append_singleton uses u ih =>
    rw [after_concat]
    obtain ⟨hsound, hcapacity⟩ := sound_use ih.1 u
    exact ⟨hsound, hcapacity.trans ih.2⟩

/-- **The texts in a cache** are the good ones without repetitions, as many of the latest as there is room for. -/
theorem texts_after (capacity maxSteps : ℕ) (uses : List Use) :
    (after capacity maxSteps uses).texts = (good maxSteps uses).eraseDups.take capacity := by
  induction uses using List.reverseRecOn with
  | nil => exact List.take_nil.symm
  | append_singleton uses u ih =>
    obtain ⟨hsound, hcapacity⟩ := sound_after capacity maxSteps uses
    rw [after_concat]
    cases u with
    | clear =>
      rw [good_concat_clear]
      exact List.take_nil.symm
    | request text =>
      rw [use, get_snd hsound, good_concat_request]
      cases Path.compile maxSteps text with
      | ok path =>
        change (touch _ text path).texts = _
        rw [texts_touch, hcapacity, ih, take_cons_erase, eraseDups_cons_eq]
      | error error => exact ih

theorem size_after (capacity maxSteps : ℕ) (uses : List Use) :
    (after capacity maxSteps uses).size = min capacity (good maxSteps uses).toFinset.card := by
  rw [← length_eraseDups, ← List.length_take, ← texts_after, texts, List.length_map, size]

/-- A text that is no path leaves the cache alone, however often it is requested. -/
theorem after_append_replicate (capacity : ℕ) (uses : List Use) (herror : Path.compile maxSteps text = .error error)
    (n : ℕ) : after capacity maxSteps (uses ++ List.replicate n (.request text)) = after capacity maxSteps uses := by
  induction n with
  | zero => rw [List.replicate_zero, List.append_nil]
  | succ n ih =>
    rw [List.replicate_succ', ← List.append_assoc, after_concat, ih, use, get_snd (sound_after _ _ _).1, herror]

/-- **The cache keeps exactly the most recently used paths.** After any requests and clearings its texts are the good
ones, the latest first and each of them once, up to its capacity: a text is kept iff it is good and fewer than
`capacity` other good texts were requested after it. A text that is no path changes nothing, however often it is
requested, and a cache of no capacity stays empty. One more path moves to the front if it was there, comes in addition
if there is room, and else takes the place of the least recent one. -/
theorem keeps_most_recent (capacity maxSteps : ℕ) (uses : List Use) :
    (after capacity maxSteps uses).texts = (good maxSteps uses).eraseDups.take capacity ∧
      (after capacity maxSteps uses).texts.Nodup ∧
      (after capacity maxSteps uses).size = min capacity (good maxSteps uses).toFinset.card ∧
      (∀ text, text ∈ (after capacity maxSteps uses).texts ↔ text ∈ good maxSteps uses ∧
        ((good maxSteps uses).takeWhile (· ≠ text)).toFinset.card < capacity) ∧
      (∀ text error, Path.compile maxSteps text = .error error → ∀ n,
        after capacity maxSteps (uses ++ List.replicate n (.request text)) = after capacity maxSteps uses) ∧
      (after 0 maxSteps uses).entries = [] ∧
      ∀ text path, Path.compile maxSteps text = .ok path → 0 < capacity →
        (after capacity maxSteps (uses ++ [.request text])).entries = (text, path) ::
          if text ∈ (after capacity maxSteps uses).texts then
            (after capacity maxSteps uses).entries.eraseP (·.1 = text)
          else if (after capacity maxSteps uses).size < capacity then (after capacity maxSteps uses).entries
          else (after capacity maxSteps uses).entries.dropLast := by
  obtain ⟨hsound, hcapacity⟩ := sound_after capacity maxSteps uses
  have hsize := size_after capacity maxSteps uses
  refine ⟨texts_after capacity maxSteps uses, ?_, hsize, ?_, ?_, ?_, ?_⟩
  · rw [texts_after]
    exact (nodup_eraseDups _).sublist (List.take_sublist _ _)
  · intro text
    rw [texts_after]
    exact mem_take_eraseDups
  · intro text error herror
    exact after_append_replicate capacity uses herror
  · have hempty := texts_after 0 maxSteps uses
    rw [List.take_zero] at hempty
    exact List.map_eq_nil_iff.1 hempty
  · intro text path hpath hpos
    have hroom : (after capacity maxSteps uses).size ≤ (after capacity maxSteps uses).capacity := by
      rw [hsize, hcapacity]
      exact Nat.min_le_left _ _
    have hentries := entries_get hsound hpath (hpos.trans_eq hcapacity.symm) hroom
    rw [hcapacity] at hentries
    rw [after_concat]
    exact hentries

/-- A path that is requested again outlives one that was requested after it, and a text that is no path does not count. -/
theorem keeps_most_recent_again :
    (after 2 8 [.request "$.a", .request "$.b", .request "$.a", .request "$[*]", .request "$.c"]).texts =
        ["$.c", "$.a"] ∧
      after 2 8 ([.request "$.a", .request "$.b"] ++ List.replicate 3 (.request "$[*]")) =
        after 2 8 [.request "$.a", .request "$.b"] := by
  constructor
  · rw [(keeps_most_recent 2 8 _).1]
    rfl
  · exact (keeps_most_recent 2 8 [.request "$.a", .request "$.b"]).2.2.2.2.1 "$[*]"
      (.path "$[*]" .expectedIndexOrName 2) rfl 3

end SqlJson.PathCache
