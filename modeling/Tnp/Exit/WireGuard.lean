import Mathlib
import Tnp.Exit.Reconcile
import Tnp.Lib.Separated

/-!
The interface that the agent's commands change.

WireGuard gives a peer the addresses named in `allowed-ips` in place of those it had, and an
address belongs to the peer it was given to last. A prefix is the text in which `wg` prints it.
-/

namespace Tnp.Exit

open Tnp.Lib Tnp.SharedTypes Tnp.Namespace

/-- The peers of the interface, and what each may send from. -/
abbrev Kernel := Holdings String String

def PeerChange.toChange : PeerChange → Holdings.Change String String
  | .remove publicKey => .release publicKey
  | .set publicKey allowedIps => .assign publicKey allowedIps

/-- What `wg set` reads of its arguments after the interface. -/
def readPeers : List String → Option (List PeerChange)
  | [] => some []
  | "peer" :: key :: "remove" :: rest => (readPeers rest).map (.remove key :: ·)
  | "peer" :: key :: "allowed-ips" :: ips :: rest =>
    (readPeers rest).map (.set key (splitIps ips) :: ·)
  | _ => none

/-- The changes that an invocation of `wg` asks for. -/
def changesOf : List String → List PeerChange
  | "set" :: _ :: peers => (readPeers peers).getD []
  | _ => []

/-- The changes take effect one after the other. -/
def Kernel.carryOut (kernel : Kernel) (changes : List PeerChange) : Kernel :=
  Run.run Holdings.apply kernel (changes.map PeerChange.toChange)

/-- All of the commands, each with all of its changes. -/
def Kernel.runAll (kernel : Kernel) (commands : List (List String)) : Kernel :=
  commands.foldl (fun kernel args => kernel.carryOut (changesOf args)) kernel

/-! ### What `wg show` prints -/

def showIps (ips : List String) : List Char :=
  if ips = [] then "(none)".toList else [' '].intercalate (ips.map String.toList)

def showLine (entry : String × List String) : List Char :=
  entry.1.toList ++ '\t' :: showIps entry.2

/-- `wg show <iface> allowed-ips`, for the peers in some order. -/
def showAllowedIps (listing : List (String × List String)) : String :=
  String.ofList (listing.flatMap fun entry => showLine entry ++ ['\n'])

/-- Every peer is listed once, with its prefixes in some order. -/
structure Lists (listing : List (String × List String)) (kernel : Kernel) : Prop where
  nodup : (listing.map Prod.fst).Nodup
  sound : ∀ key ips, (key, ips) ∈ listing → ∃ held, kernel.get key = some held ∧ ips.Perm held
  complete : ∀ key held, kernel.get key = some held → ∃ ips, (key, ips) ∈ listing ∧ ips.Perm held

/-- Keys and prefixes are as `wg` prints them. -/
structure Kernel.Printable (kernel : Kernel) : Prop where
  keys : ∀ key held, kernel.get key = some held → matchesKey key = true
  prefixes : ∀ key held, kernel.get key = some held → ∀ ip ∈ held, matchesPrefix ip = true

/-- What was read is what there is. -/
def Shows (kernel : Kernel) (actual : ActualPeers) : Prop :=
  ∀ key, actual.get key = (kernel.get key).map sortTexts

/-! ### Arguments are read as they were written -/

lemma readPeers_argsOf {changes : List PeerChange} (h : ∀ c ∈ changes, c.Writable) :
    readPeers (changes.flatMap argsOf) = some changes := by
  induction changes with
  | nil => rfl
  | cons c changes ih =>
    obtain ⟨hc, hrest⟩ := List.forall_mem_cons.mp h
    have hread := ih hrest
    cases c with
    | remove key => simp [argsOf, readPeers, hread]
    | set key ips => simp [argsOf, readPeers, hread, splitIps_joinIps hc.2.1 hc.2.2]

/-- The commands ask for the changes they were made from, in order. -/
lemma changesOf_commands (iface : String) {changes : List PeerChange}
    (h : ∀ c ∈ changes, c.Writable) :
    ((slices changes).map fun slice => "set" :: iface :: slice.flatMap argsOf).flatMap changesOf =
      changes := by
  rw [List.flatMap_map]
  have hread : ∀ slice ∈ slices changes,
      changesOf ("set" :: iface :: slice.flatMap argsOf) = slice := by
    intro slice hslice
    have hwritable : ∀ c ∈ slice, c.Writable := fun c hc =>
      h c (flatten_slices changes ▸ List.mem_flatten.mpr ⟨slice, hslice, hc⟩)
    simp [changesOf, readPeers_argsOf hwritable]
  rw [List.flatMap_congr hread]
  simpa using flatten_slices changes

lemma Kernel.carryOut_append (kernel : Kernel) (before after : List PeerChange) :
    kernel.carryOut (before ++ after) = (kernel.carryOut before).carryOut after := by
  rw [carryOut, List.map_append, Run.run_append]
  rfl

/-- Where one command ends and the next begins does not matter. -/
lemma Kernel.runAll_eq (kernel : Kernel) (commands : List (List String)) :
    kernel.runAll commands = kernel.carryOut (commands.flatMap changesOf) := by
  induction commands generalizing kernel with
  | nil => rfl
  | cons args commands ih =>
    rw [List.flatMap_cons, carryOut_append]
    exact ih (kernel.carryOut (changesOf args))

/-! ### What is printed is read -/

lemma isSpace_eq_false {c : Char} (h : 32 < c.toNat ∧ c.toNat < 128) : isSpace c = false := by
  simp [isSpace]
  omega

lemma isSpace_of_isAddressChar {c : Char} (h : isAddressChar c = true ∨ c = '/') :
    isSpace c = false := by
  refine isSpace_eq_false ?_
  rcases h with h | rfl
  · simp only [isAddressChar, isHexDigit, Char.isDigit, Bool.or_eq_true, Bool.and_eq_true,
      decide_eq_true_eq, beq_iff_eq, ge_iff_le, UInt32.le_iff_toNat_le, Char.le_def] at h
    rcases h with ((h | h) | rfl) | rfl
    · exact ⟨lt_of_lt_of_le (by decide) h.1, lt_of_le_of_lt h.2 (by decide)⟩
    · exact ⟨lt_of_lt_of_le (by decide) h.1, lt_of_le_of_lt h.2 (by decide)⟩
    · decide
    · decide
  · decide

lemma isSpace_of_matchesPrefix {ip : String} (h : matchesPrefix ip = true) {c : Char}
    (hc : c ∈ ip.toList) : isSpace c = false :=
  isSpace_of_isAddressChar ((chars_of_matchesPrefix h).1 c hc)

lemma isSpace_of_isBase64Char {c : Char} (h : isBase64Char c = true ∨ c = '=') :
    isSpace c = false := by
  refine isSpace_eq_false ?_
  rcases h with h | rfl
  · simp only [isBase64Char, Char.isAlphanum, Char.isAlpha, Char.isUpper, Char.isLower,
      Char.isDigit, Bool.or_eq_true, Bool.and_eq_true, decide_eq_true_eq, beq_iff_eq, ge_iff_le,
      UInt32.le_iff_toNat_le] at h
    rcases h with (((h | h) | h) | rfl) | rfl
    · exact ⟨lt_of_lt_of_le (by decide) h.1, lt_of_le_of_lt h.2 (by decide)⟩
    · exact ⟨lt_of_lt_of_le (by decide) h.1, lt_of_le_of_lt h.2 (by decide)⟩
    · exact ⟨lt_of_lt_of_le (by decide) h.1, lt_of_le_of_lt h.2 (by decide)⟩
    · decide
    · decide
  · decide

lemma isSpace_of_matchesKey {key : String} (h : matchesKey key = true) {c : Char}
    (hc : c ∈ key.toList) : isSpace c = false := by
  simp only [matchesKey, Bool.and_eq_true, beq_iff_eq, List.all_eq_true] at h
  obtain ⟨⟨hlength, hlast⟩, hchars⟩ := h
  obtain ⟨cs, hcs⟩ := List.getLast?_eq_some_iff.mp hlast
  rw [hcs, List.dropLast_concat] at hchars
  rw [hcs] at hc
  rcases List.mem_append.mp hc with hc | hc
  · exact isSpace_of_isBase64Char (.inl (hchars c hc))
  · exact isSpace_of_isBase64Char (.inr (List.mem_singleton.mp hc))

/-- A list of prefixes, as `wg` prints it, begins and ends with no blank. -/
lemma ends_of_showIps {ips : List String} (h : ∀ ip ∈ ips, matchesPrefix ip = true) :
    ∃ c cs ds d, showIps ips = c :: cs ∧ showIps ips = ds ++ [d] ∧ isSpace c = false ∧
      isSpace d = false := by
  induction ips with
  | nil => exact ⟨'(', "none)".toList, "(none".toList, ')', rfl, rfl, by decide, by decide⟩
  | cons ip rest ih =>
    obtain ⟨hip, hrest⟩ := List.forall_mem_cons.mp h
    have hchars : ip.toList ≠ [] := fun hnil =>
      (chars_of_matchesPrefix hip).2 (String.toList_eq_nil_iff.mp hnil)
    obtain ⟨c, cs, hcs⟩ := List.exists_cons_of_ne_nil hchars
    have hc : isSpace c = false := isSpace_of_matchesPrefix hip (hcs ▸ List.mem_cons_self)
    rw [showIps, if_neg (by simp)]
    cases rest with
    | nil =>
      simp only [List.map_cons, List.map_nil, List.intercalate_singleton]
      exact ⟨c, cs, _, _, hcs, (List.dropLast_append_getLast hchars).symm, hc,
        isSpace_of_matchesPrefix hip (List.getLast_mem hchars)⟩
    | cons ip' rest =>
      obtain ⟨-, -, ds, d, -, hlast, -, hd⟩ := ih hrest
      rw [showIps, if_neg (by simp)] at hlast
      rw [List.map_cons, List.map_cons, List.intercalate_cons_cons, ← List.map_cons, hlast]
      exact ⟨c, cs ++ [' '] ++ (ds ++ [d]), ip.toList ++ [' '] ++ ds, d, by simp [hcs], by simp,
        hc, hd⟩

/-- The characters in a list of prefixes. -/
lemma mem_showIps {ips : List String} (h : ∀ ip ∈ ips, matchesPrefix ip = true) {c : Char}
    (hc : c ∈ showIps ips) : c = ' ' ∨ (isSpace c = false ∧ (c = '(' → ips = [])) := by
  unfold showIps at hc
  split at hc
  · next hnil =>
    have hchars : "(none)".toList.all (fun c => !isSpace c) = true := by decide
    exact .inr ⟨by simpa using List.all_eq_true.mp hchars c hc, fun _ => hnil⟩
  · have key (runs : List (List Char)) (hmem : c ∈ [' '].intercalate runs) :
        c = ' ' ∨ ∃ run ∈ runs, c ∈ run := by
      induction runs with
      | nil => simp at hmem
      | cons run rest ih =>
        cases rest with
        | nil => exact .inr ⟨run, by simp, by simpa using hmem⟩
        | cons run' rest =>
          rw [List.intercalate_cons_cons, List.mem_append, List.mem_append] at hmem
          rcases hmem with (hmem | hmem) | hmem
          · exact .inr ⟨run, by simp, hmem⟩
          · exact .inl (List.mem_singleton.mp hmem)
          · rcases ih hmem with hblank | ⟨r, hr, hmem⟩
            · exact .inl hblank
            · exact .inr ⟨r, List.mem_cons_of_mem _ hr, hmem⟩
    rcases key _ hc with hblank | ⟨run, hrun, hmem⟩
    · exact .inl hblank
    · obtain ⟨ip, hip, rfl⟩ := List.mem_map.mp hrun
      refine .inr ⟨isSpace_of_matchesPrefix (h ip hip) hmem, ?_⟩
      rintro rfl
      rcases (chars_of_matchesPrefix (h ip hip)).1 '(' hmem with hbad | hbad
      · exact absurd hbad (by decide)
      · exact absurd hbad (by decide)

lemma words_showIps {ips : List String} (h : ∀ ip ∈ ips, matchesPrefix ip = true) :
    (if showIps ips = "(none)".toList then [] else words (showIps ips)) = ips := by
  by_cases hnil : ips = []
  · subst hnil
    rfl
  · have hne : showIps ips ≠ "(none)".toList := by
      intro heq
      rcases mem_showIps h (c := '(') (heq ▸ by decide) with hbad | ⟨-, hbad⟩
      · exact absurd hbad (by decide)
      · exact hnil (hbad rfl)
    have hsplit : ([' '].intercalate (ips.map String.toList)).splitOnP isSpace =
        ips.map String.toList := by
      refine splitOnP_intercalate (by decide) ?_ fun h => hnil (List.map_eq_nil_iff.mp h)
      intro run hrun c hc
      obtain ⟨ip, hip, rfl⟩ := List.mem_map.mp hrun
      exact isSpace_of_matchesPrefix (h ip hip) hc
    have hfilter : (ips.map String.toList).filter (· ≠ []) = ips.map String.toList := by
      refine List.filter_eq_self.mpr fun run hrun => ?_
      obtain ⟨ip, hip, rfl⟩ := List.mem_map.mp hrun
      exact decide_eq_true fun hempty =>
        (chars_of_matchesPrefix (h ip hip)).2 (String.toList_eq_nil_iff.mp hempty)
    rw [if_neg hne, showIps, if_neg hnil, words, hsplit, hfilter]
    simp [Function.comp_def]

/-- A line is read as the peer it was printed for. -/
lemma parseLine_showLine {peers : ActualPeers} {key : String} {ips : List String}
    (hkey : matchesKey key = true) (hips : ∀ ip ∈ ips, matchesPrefix ip = true)
    (hnew : peers.get key = none) :
    parseLine peers (showLine (key, ips)) = .ok (peers.set key (sortTexts ips)) := by
  obtain ⟨c, cs, ds, d, hfirst, hlast, hc, hd⟩ := ends_of_showIps hips
  have hlength : key.toList.length = 44 := by
    simp only [matchesKey, Bool.and_eq_true, beq_iff_eq] at hkey
    exact hkey.1.1
  have hline : showLine (key, ips) = key.toList ++ ('\t' :: showIps ips) := rfl
  have htrim : (showLine (key, ips)).rdropWhile isSpace = showLine (key, ips) := by
    have hnotSpace : ¬ isSpace d = true := by simp [hd]
    rw [hline, hlast, ← List.cons_append, ← List.append_assoc]
    exact List.rdropWhile_concat_neg _ _ _ hnotSpace
  have hmatch : matchLine (showLine (key, ips)) = some (key, showIps ips) := by
    have hterm : (showIps ips).any isLineTerminator = false := by
      refine List.any_eq_false.mpr fun x hx => ?_
      rcases mem_showIps hips hx with rfl | ⟨hspace, -⟩
      · decide
      · intro hbad
        simp only [isLineTerminator, List.contains_iff_mem, List.mem_cons, List.not_mem_nil,
          or_false] at hbad
        have : isSpace x = true := by
          simp [isSpace]
          omega
        simp [this] at hspace
    unfold matchLine
    dsimp only
    rw [htrim, hline, List.take_left' hlength, List.drop_left' hlength, String.ofList_toList,
      List.dropWhile_cons_of_pos (by decide), hfirst, List.dropWhile_cons_of_neg (by simp [hc]),
      ← hfirst]
    have hne : (showIps ips).isEmpty = false := by rw [hfirst, List.isEmpty_cons]
    rw [hkey, hterm, hne]
    rfl
  have hblank : (showLine (key, ips)).all isSpace = false := by
    rw [hline, hlast]
    simp [hd]
  rw [parseLine, hmatch]
  simp only [hblank, Bool.false_eq_true, if_false, OrderedMap.has, hnew, Option.isSome_none,
    words_showIps hips, List.all_eq_true.mpr hips, Bool.not_true]

/-- The lines of a listing add its peers one after the other. -/
lemma foldlM_showLine {listing : List (String × List String)} {peers : ActualPeers}
    (hentries : ∀ e ∈ listing, matchesKey e.1 = true ∧ ∀ ip ∈ e.2, matchesPrefix ip = true)
    (hnodup : (listing.map Prod.fst).Nodup) (hnew : ∀ e ∈ listing, peers.get e.1 = none) :
    (listing.map showLine).foldlM parseLine peers =
      .ok ((listing.map fun e => (e.1, sortTexts e.2)).foldl (fun m e => m.set e.1 e.2) peers) := by
  induction listing generalizing peers with
  | nil => rfl
  | cons e rest ih =>
    obtain ⟨key, ips⟩ := e
    obtain ⟨⟨hkey, hips⟩, hrest⟩ := List.forall_mem_cons.mp hentries
    obtain ⟨hfresh, hnew⟩ := List.forall_mem_cons.mp hnew
    rw [List.map_cons, List.nodup_cons] at hnodup
    rw [List.map_cons, List.foldlM_cons, parseLine_showLine hkey hips hfresh]
    refine ih hrest hnodup.2 fun e he => ?_
    rw [OrderedMap.get_set_of_ne]
    · exact hnew e he
    · exact fun heq => hnodup.1 (List.mem_map.mpr ⟨e, he, heq.symm⟩)

lemma flatMap_showLine (listing : List (String × List String)) :
    listing.flatMap (fun e => showLine e ++ ['\n']) =
      ['\n'].intercalate (listing.map showLine ++ [[]]) := by
  induction listing with
  | nil => rfl
  | cons e rest ih =>
    rw [List.flatMap_cons, ih, List.map_cons, List.cons_append, List.intercalate_cons_of_ne_nil]
    simp

lemma newline_showLine {key : String} {ips : List String} (hkey : matchesKey key = true)
    (hips : ∀ ip ∈ ips, matchesPrefix ip = true) : '\n' ∉ showLine (key, ips) := by
  intro hmem
  rcases List.mem_append.mp hmem with hmem | hmem
  · exact absurd (isSpace_of_matchesKey hkey hmem) (by decide)
  · rcases List.mem_cons.mp hmem with hbad | hmem
    · exact absurd hbad (by decide)
    · rcases mem_showIps hips hmem with hbad | ⟨hbad, -⟩
      · exact absurd hbad (by decide)
      · exact absurd hbad (by decide)

/-- **What `wg` prints of an interface is read as its peers**, each with its prefixes sorted. -/
theorem parse_showAllowedIps {kernel : Kernel} {listing : List (String × List String)}
    (hkernel : kernel.Printable) (hlist : Lists listing kernel) :
    ∃ actual, parseWgAllowedIps (showAllowedIps listing) = .ok actual ∧ Shows kernel actual := by
  have hentries : ∀ e ∈ listing, matchesKey e.1 = true ∧ ∀ ip ∈ e.2, matchesPrefix ip = true := by
    rintro ⟨key, ips⟩ he
    obtain ⟨held, hget, hperm⟩ := hlist.sound key ips he
    exact ⟨hkernel.keys key held hget, fun ip hip =>
      hkernel.prefixes key held hget ip (hperm.mem_iff.mp hip)⟩
  have hlines : (showAllowedIps listing).toList.splitOn '\n' = listing.map showLine ++ [[]] := by
    rw [showAllowedIps, String.toList_ofList, flatMap_showLine]
    refine List.splitOn_intercalate _ ?_ (by simp)
    intro line hline
    rcases List.mem_append.mp hline with hline | hline
    · obtain ⟨e, he, rfl⟩ := List.mem_map.mp hline
      exact newline_showLine (hentries e he).1 (hentries e he).2
    · simp [List.mem_singleton.mp hline]
  refine ⟨.ofList (listing.map fun e => (e.1, sortTexts e.2)), ?_, ?_⟩
  · rw [parseWgAllowedIps, hlines, List.foldlM_append, foldlM_showLine hentries hlist.nodup]
    · rfl
    · simp
  · intro key
    have hkeys : ((listing.map fun e => (e.1, sortTexts e.2)).map Prod.fst).Nodup := by
      simpa [Function.comp_def] using hlist.nodup
    cases hget : kernel.get key with
    | none =>
      refine Option.eq_none_iff_forall_ne_some.mpr fun ips hips => ?_
      rw [OrderedMap.get_ofList hkeys] at hips
      obtain ⟨e, he, heq⟩ := List.mem_map.mp hips
      obtain ⟨rfl, -⟩ := Prod.mk.inj heq
      obtain ⟨held, hheld, -⟩ := hlist.sound e.1 e.2 he
      simp [hget] at hheld
    | some held =>
      obtain ⟨ips, hmem, hperm⟩ := hlist.complete key held hget
      rw [Option.map_some, OrderedMap.get_ofList hkeys, ← sortTexts_eq_of_perm hperm]
      exact List.mem_map.mpr ⟨_, hmem, rfl⟩

end Tnp.Exit
