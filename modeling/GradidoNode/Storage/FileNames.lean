/-
# `GradidoNode.Storage.FileNames` — how many blocks a folder has

`Fnr::get_file_count` goes over a folder, takes the number out of each file name
the regular expression matches and keeps one more than the largest.  The number
has 64 bits and the count 32, and the test for too many blocks looks at the count
when it has been narrowed:

    N < 2^32 - 2                 the count becomes N + 1, or stays
    N % 2^32 = 2^32 - 2          it becomes 2^32 - 1: "too many blocks"
    any other N < 2^64           it becomes (N + 1) % 2^32
    2^64 ≤ N, or a zero in front    `stoul` throws, or the comparison with `to_string`

A number of the third kind is not noticed, and what it leaves depends on where in
the iteration it comes (`count_by_order`).  `getFileCount_right_iff` is over every
folder and every order.
-/
import GradidoNode.Storage.Reopen

namespace GradidoNode.Fnr

open Blockchain (isFile)

/-! ## The loop -/

/-- What the directory iterator stands at. -/
structure DirEntry where
  fileName : List Char
  isFile : Bool
  deriving DecidableEq

/-- `get_file_name`, within the folder. -/
def getFileName (name : List Char) (index : Nat) : List Char :=
  name ++ '.' :: (Nat.toDigits 10 index ++ ".block".toList)

/-- The group of `^name\.(\d+)\.block$`, where it matches.  The names that are used have no
character with a meaning there; `$` is also in front of a newline at the end. -/
def split (name fname : List Char) : Option (List Char) :=
  let rest := fname.drop (name.length + 1)
  let ss := rest.takeWhile Char.isDigit
  let tail := rest.dropWhile Char.isDigit
  if fname.take (name.length + 1) = name ++ ['.'] ∧ ss ≠ [] ∧
      (tail = ".block".toList ∨ tail = ".block\n".toList) then some ss
  else none

/-- `std::stoul`, of digits. -/
def stoul (ss : List Char) : Except Fault Nat :=
  if Nat.ofDigitChars 10 ss 0 < 2 ^ 64 then .ok (Nat.ofDigitChars 10 ss 0)
  else .error (.thrown "stoul")

/-- A round of the loop at a file that matches, up to the last test. -/
def countMatch (fname ss : List Char) (res : Nat) : Except Fault Nat := do
  let blockNum ← stoul ss
  if Nat.toDigits 10 blockNum ≠ ss then
    throw (.thrown ("bad block number for " ++ String.ofList fname))
  else if res ≤ blockNum then return (blockNum + 1) % 2 ^ 64 % 2 ^ 32
  else return res

/-- One round of the loop. -/
def countFile (name : List Char) (res : Nat) (e : DirEntry) : Except Fault Nat := do
  let res ← match e.isFile, split name e.fileName with
    | true, some ss => countMatch e.fileName ss res
    | _, _ => pure res
  if res = 2 ^ 32 - 1 then throw (.thrown "too many blocks") else return res

def getFileCount (name : List Char) (entries : List DirEntry) : Except Fault Nat :=
  entries.foldlM (countFile name) 0

variable {name : List Char} {entries : List DirEntry} {e : DirEntry} {ss : List Char} {res c n : Nat}

/-! ## One round -/

def Matched (name : List Char) (e : DirEntry) (ss : List Char) : Prop :=
  e.isFile = true ∧ split name e.fileName = some ss

/-- The digits of a number of 64 bits, as `to_string` writes them. -/
def Taken (ss : List Char) (n : Nat) : Prop :=
  n < 2 ^ 64 ∧ Nat.toDigits 10 n = ss

/-- The rounds that throw. -/
def Fatal (ss : List Char) : Prop :=
  ∀ n, Taken ss n → n % 2 ^ 32 = 2 ^ 32 - 2

/-- What a round does, the count before it being no more than `2^32 - 2`. -/
inductive Round (name : List Char) (res : Nat) (e : DirEntry) : Except Fault Nat → Prop
  | skipped (h : ∀ ss, ¬ Matched name e ss) : Round name res e (.ok res)
  | fatal {ss : List Char} {err : Fault} (hm : Matched name e ss) (h : Fatal ss) :
      Round name res e (.error err)
  | counted {ss : List Char} {n : Nat} (hm : Matched name e ss) (hn : Taken ss n)
      (hne : n % 2 ^ 32 ≠ 2 ^ 32 - 2) :
      Round name res e (.ok (if res ≤ n then (n + 1) % 2 ^ 32 else res))

theorem Taken.value (h : Taken ss n) : Nat.ofDigitChars 10 ss 0 = n := by
  rw [← h.2]
  exact Nat.ofDigitChars_ten_toDigits

theorem countMatch_taken {fname : List Char} (h : Taken ss n) :
    countMatch fname ss res = .ok (if res ≤ n then (n + 1) % 2 ^ 32 else res) := by
  have hst : stoul ss = .ok n := by
    rw [stoul, h.value]
    exact if_pos h.1
  rw [countMatch, hst]
  show (if Nat.toDigits 10 n ≠ ss then _ else if res ≤ n then _ else _) = _
  rw [if_neg (not_not.mpr h.2), Nat.mod_mod_of_dvd _ (by decide)]
  split <;> rfl

theorem countMatch_throws (fname : List Char) (res : Nat) (h : ∀ n, ¬ Taken ss n) :
    ∃ err, countMatch fname ss res = .error err := by
  rw [countMatch, stoul]
  split
  · rename_i hlt
    refine ⟨_, if_pos fun heq => h _ ⟨hlt, heq⟩⟩
  · exact ⟨_, rfl⟩

theorem countFile_round (name : List Char) (e : DirEntry) (hres : res < 2 ^ 32 - 1) :
    Round name res e (countFile name res e) := by
  have hskip (hno : ∀ ss, ¬ Matched name e ss) (heq : countFile name res e =
      if res = 2 ^ 32 - 1 then throw (.thrown "too many blocks") else return res) :
      Round name res e (countFile name res e) := by
    rw [heq, if_neg (Nat.ne_of_lt hres)]
    exact .skipped hno
  unfold countFile at hskip ⊢
  cases hf : e.isFile with
  | false =>
    rw [hf] at hskip
    exact hskip (fun ss h => by cases hf.symm.trans h.1) rfl
  | true =>
  rw [hf] at hskip
  cases hsp : split name e.fileName with
  | none =>
    rw [hsp] at hskip
    exact hskip (fun ss h => by cases hsp.symm.trans h.2) rfl
  | some ss =>
  dsimp only
  by_cases ht : ∃ n, Taken ss n
  · obtain ⟨n, hn⟩ := ht
    rw [countMatch_taken hn]
    show Round name res e (if (if res ≤ n then (n + 1) % 2 ^ 32 else res) = 2 ^ 32 - 1 then _ else _)
    by_cases hne : n % 2 ^ 32 = 2 ^ 32 - 2
    · have hfa : Fatal ss := by
        intro n' hn'
        rw [← hn'.value, hn.value]
        exact hne
      rw [if_pos (by rw [if_pos (by omega)]; omega)]
      exact .fatal ⟨hf, hsp⟩ hfa
    · rw [if_neg (by split <;> omega)]
      exact .counted ⟨hf, hsp⟩ hn hne
  · obtain ⟨err, herr⟩ := countMatch_throws e.fileName res (not_exists.mp ht)
    rw [herr]
    exact .fatal ⟨hf, hsp⟩ fun n hn => absurd ⟨n, hn⟩ ht

/-! ## All rounds -/

theorem Round.ok_lt {res' : Nat} (h : Round name res e (.ok res')) (hres : res < 2 ^ 32 - 1) :
    res' < 2 ^ 32 - 1 := by
  cases h with
  | skipped => exact hres
  | counted =>
    split
    · omega
    · exact hres

/-- The loop throws where a round does, and has a count below `2^32 - 1` otherwise. -/
theorem rounds_cases (name : List Char) (entries : List DirEntry) (hres : res < 2 ^ 32 - 1) :
    ((∃ err, entries.foldlM (countFile name) res = .error err) ∧
      ∃ e ∈ entries, ∃ ss, Matched name e ss ∧ Fatal ss) ∨
    ((∃ c < 2 ^ 32 - 1, entries.foldlM (countFile name) res = .ok c) ∧
      ∀ e ∈ entries, ∀ ss, Matched name e ss → ¬ Fatal ss) := by
  induction entries generalizing res with
  | nil => exact .inr ⟨⟨res, hres, rfl⟩, fun e he => absurd he List.not_mem_nil⟩
  | cons e entries ih =>
    rw [List.foldlM_cons, List.forall_mem_cons, List.exists_mem_cons_iff]
    have hr := countFile_round name e hres
    generalize countFile name res e = r at hr ⊢
    cases r with
    | error err =>
      cases hr with
      | fatal hm hfa => exact .inl ⟨⟨err, rfl⟩, .inl ⟨_, hm, hfa⟩⟩
    | ok res' =>
      have hno : ∀ ss, Matched name e ss → ¬ Fatal ss := by
        intro ss hm hfa
        cases hr with
        | skipped h => exact h ss hm
        | counted hm' hn hne =>
          cases hm.2.symm.trans hm'.2
          exact hne (hfa _ hn)
      rcases ih (hr.ok_lt hres) with ⟨herr, hin⟩ | ⟨hok, hall⟩
      · exact .inl ⟨herr, .inr hin⟩
      · exact .inr ⟨hok, hno, hall⟩

/-- A file that does not keep the count from being `c`: its number is below `c` or is narrowed
to one that is. -/
def Harmless (c : Nat) (ss : List Char) : Prop :=
  ∃ n, Taken ss n ∧ (n < c ∨ 2 ^ 32 - 1 ≤ n ∧ (n + 1) % 2 ^ 32 = c)

/-- Among harmless files the count is `c` once the file of number `c - 1` has been met. -/
theorem rounds_count (hc : c < 2 ^ 32 - 1)
    (hall : ∀ e ∈ entries, ∀ ss, Matched name e ss → Harmless c ss) (hres : res ≤ c)
    (hat : res = c ∨ ∃ e ∈ entries, ∃ ss n, Matched name e ss ∧ Taken ss n ∧ n + 1 = c) :
    entries.foldlM (countFile name) res = .ok c := by
  induction entries generalizing res with
  | nil =>
    rcases hat with rfl | ⟨e, he, -⟩
    · rfl
    · cases he
  | cons e entries ih =>
    obtain ⟨hhe, hall⟩ := List.forall_mem_cons.mp hall
    rw [List.exists_mem_cons_iff] at hat
    rw [List.foldlM_cons]
    have hr := countFile_round name e (Nat.lt_of_le_of_lt hres hc)
    generalize countFile name res e = r at hr
    cases hr with
    | skipped h =>
      refine ih hall hres (hat.imp_right fun hat => hat.resolve_left ?_)
      rintro ⟨ss, n, hm, -⟩
      exact h ss hm
    | fatal hm hfa =>
      obtain ⟨n, hn, hn'⟩ := hhe _ hm
      have := hfa n hn
      omega
    | @counted ss n hm hn hne =>
      obtain ⟨n', hn', hha⟩ := hhe ss hm
      obtain rfl : n' = n := hn'.value.symm.trans hn.value
      refine ih hall ?_ ?_
      · split <;> omega
      · rcases hat with rfl | ⟨ss', n, hm', hn, heq⟩ | hat
        · left
          split <;> omega
        · cases hm.2.symm.trans hm'.2
          obtain rfl : n = n' := hn.value.symm.trans hn'.value
          left
          split <;> omega
        · exact .inr hat

/-- The last file of a folder that has been counted is harmless. -/
theorem harmless_of_last (h : getFileCount name (entries ++ [e]) = .ok c)
    (hm : Matched name e ss) : Harmless c ss := by
  rw [getFileCount, List.foldlM_append] at h
  obtain ⟨⟨err, herr⟩, -⟩ | ⟨⟨res, hres, hok⟩, -⟩ :=
    rounds_cases name entries (by decide : 0 < 2 ^ 32 - 1)
  · rw [herr] at h
    cases h
  · rw [hok] at h
    replace h : (countFile name res e >>= pure) = .ok c := h
    have hr := countFile_round name e hres
    rw [← bind_pure (countFile name res e), h] at hr
    cases hr with
    | skipped hno => exact absurd hm (hno ss)
    | @counted ss' n hm' hn hne =>
      cases hm.2.symm.trans hm'.2
      refine ⟨n, hn, ?_⟩
      split <;> omega

/-! ## The count of a folder -/

/-- The regular files `name.N.block`. -/
def IsBlock (name : List Char) (entries : List DirEntry) (N : Nat) : Prop :=
  ⟨getFileName name N, true⟩ ∈ entries

/-- One more than the largest block number, 0 if there is none. -/
def IsCount (name : List Char) (entries : List DirEntry) (n : Nat) : Prop :=
  (∀ N, IsBlock name entries N → N < n) ∧ (0 < n → IsBlock name entries (n - 1))

/-- The numbers for which there is a count of 32 bits. -/
def Small (name : List Char) (entries : List DirEntry) : Prop :=
  ∀ N, IsBlock name entries N → N < 2 ^ 32 - 2

/-- What the function is for, whatever the order of the iteration. -/
structure CountsRight (name : List Char) (entries : List DirEntry) : Prop where
  count : Small name entries → ∃ n, IsCount name entries n ∧
    ∀ order, order.Perm entries → getFileCount name order = .ok n
  throws : ¬ Small name entries →
    ∀ order, order.Perm entries → ∃ err, getFileCount name order = .error err

theorem split_getFileName (name : List Char) (N : Nat) :
    split name (getFileName name N) = some (Nat.toDigits 10 N) := by
  have hdr : (getFileName name N).drop (name.length + 1)
      = Nat.toDigits 10 N ++ ".block".toList := by
    simp [getFileName]
  have htk : (getFileName name N).take (name.length + 1) = name ++ ['.'] := by
    rw [getFileName, List.take_append, List.take_of_length_le (Nat.le_succ _),
      Nat.add_sub_cancel_left]
    rfl
  have hdi : ∀ d ∈ Nat.toDigits 10 N, d.isDigit = true := fun d hd =>
    Nat.isDigit_of_mem_toDigits (by decide) (by decide) hd
  have hss : (Nat.toDigits 10 N ++ ".block".toList).takeWhile Char.isDigit
      = Nat.toDigits 10 N := by
    rw [List.takeWhile_append_of_pos hdi]
    exact List.append_nil _
  have htl : (Nat.toDigits 10 N ++ ".block".toList).dropWhile Char.isDigit = ".block".toList := by
    rw [List.dropWhile_append_of_pos hdi]
    rfl
  unfold split
  rw [hdr, htk]
  simp only [hss, htl]
  exact if_pos ⟨trivial, Nat.toDigits_ne_nil, .inl trivial⟩

theorem IsBlock.matched {N : Nat} (h : IsBlock name entries N) :
    ∃ e ∈ entries, Matched name e (Nat.toDigits 10 N) :=
  ⟨_, h, rfl, split_getFileName name N⟩

/-- With harmless files only the count is right, in every order. -/
theorem getFileCount_harmless (hsm : Small name entries) (hn : IsCount name entries n)
    (hall : ∀ e ∈ entries, ∀ ss, Matched name e ss → Harmless n ss) :
    getFileCount name entries = .ok n := by
  rcases Nat.eq_zero_or_pos n with rfl | hpos
  · exact rounds_count (by decide) hall (Nat.le_refl 0) (.inl rfl)
  · have hla := hn.2 hpos
    have hlt := hsm _ hla
    obtain ⟨e, he, hm⟩ := hla.matched
    exact rounds_count (by omega) hall (Nat.zero_le n)
      (.inr ⟨e, he, _, n - 1, hm, ⟨by omega, rfl⟩, by omega⟩)

/-- **The number of blocks, for every folder and every order of the iteration.**  Where every
block number is below `2^32 - 2`, the count is right if and only if every other file the regular
expression matches is harmless.  Where one is not, the call throws if and only if a file that
matches has a number of more than 64 bits, one that `to_string` writes otherwise, or one that
is `2^32 - 2` when it is narrowed. -/
theorem getFileCount_right_iff (name : List Char) (entries : List DirEntry) :
    CountsRight name entries ↔ (Small name entries → ∃ n, IsCount name entries n ∧
        ∀ e ∈ entries, ∀ ss, Matched name e ss → Harmless n ss) ∧
      (¬ Small name entries → ∃ e ∈ entries, ∃ ss, Matched name e ss ∧ Fatal ss) := by
  constructor
  · rintro ⟨hco, hth⟩
    refine ⟨fun hsm => ?_, fun hla => ?_⟩
    · obtain ⟨n, hn, hok⟩ := hco hsm
      refine ⟨n, hn, fun e he ss hm => ?_⟩
      -- the order in which this file is the last one
      refine harmless_of_last (hok (entries.erase e ++ [e]) ?_) hm
      exact (List.perm_append_singleton e _).trans (List.perm_cons_erase he).symm
    · obtain ⟨err, herr⟩ := hth hla entries (.refl _)
      obtain ⟨-, hfa⟩ | ⟨⟨c, -, hok⟩, -⟩ := rounds_cases name entries (by decide : 0 < 2 ^ 32 - 1)
      · exact hfa
      · cases hok.symm.trans herr
  · rintro ⟨hha, hfa⟩
    refine ⟨fun hsm => ?_, fun hla order hor => ?_⟩
    · obtain ⟨n, hn, hall⟩ := hha hsm
      refine ⟨n, hn, fun order hor => ?_⟩
      have hin : ∀ e, e ∈ order ↔ e ∈ entries := fun e => hor.mem_iff
      exact getFileCount_harmless (fun N hN => hsm N ((hin _).mp hN))
        ⟨fun N hN => hn.1 N ((hin _).mp hN), fun hpos => (hin _).mpr (hn.2 hpos)⟩
        fun e he => hall e ((hin e).mp he)
    · obtain ⟨e, he, ss, hm, hfa⟩ := hfa hla
      obtain ⟨herr, -⟩ | ⟨-, hno⟩ := rounds_cases name order (by decide : 0 < 2 ^ 32 - 1)
      · exact herr
      · exact absurd hfa (hno e (hor.mem_iff.mpr he) ss hm)

/-- Two files of one folder, the second with a number that does not fit: the count is 1 in one
order and 6 in the other, and neither call throws. -/
theorem count_by_order : let five : DirEntry := ⟨getFileName ['g'] 5, true⟩
    let large : DirEntry := ⟨getFileName ['g'] (2 ^ 32), true⟩
    getFileCount ['g'] [five, large] = .ok 1 ∧ getFileCount ['g'] [large, five] = .ok 6 ∧
      ¬ CountsRight ['g'] [five, large] := by
  intro five large
  have hone : getFileCount ['g'] [five, large] = .ok 1 := by decide
  refine ⟨hone, by decide, fun h => ?_⟩
  have hla : ¬ Small ['g'] [five, large] := fun hsm =>
    absurd (hsm (2 ^ 32) (List.mem_cons_of_mem _ List.mem_cons_self)) (by decide)
  obtain ⟨err, herr⟩ := h.throws hla _ (.refl _)
  cases hone.symm.trans herr

/-- The count over block numbers is this one, for a folder of small numbers in which nothing
else matches. -/
theorem getFileCount_blocks {Body : Type} {listing : List Nat}
    {disk : Nat → FileTile.Entry Body}
    (hin : ∀ b, IsBlock name entries b ↔ b ∈ listing ∧ isFile (disk b) = true)
    (hsm : Small name entries)
    (hno : ∀ e ∈ entries, ∀ ss, Matched name e ss →
      ∃ N, IsBlock name entries N ∧ ss = Nat.toDigits 10 N) :
    getFileCount name entries = .ok (Blockchain.getFileCount listing disk) := by
  have hlt : ∀ N, IsBlock name entries N → N < Blockchain.getFileCount listing disk :=
    fun N hN => Blockchain.lt_getFileCount ((hin N).mp hN).1 ((hin N).mp hN).2
  refine getFileCount_harmless hsm ⟨hlt, fun hpos => ?_⟩ fun e he ss hm => ?_
  · by_contra hla
    -- otherwise a smaller count would do
    have hle : Blockchain.getFileCount listing disk ≤ Blockchain.getFileCount listing disk - 1 := by
      refine Blockchain.getFileCount_le_iff.mpr fun b hb hfi => ?_
      have hbl := (hin b).mpr ⟨hb, hfi⟩
      have hne : b ≠ Blockchain.getFileCount listing disk - 1 := fun heq => hla (heq ▸ hbl)
      have := hlt b hbl
      omega
    omega
  · obtain ⟨N, hN, rfl⟩ := hno e he ss hm
    exact ⟨N, ⟨Nat.lt_trans (hsm N hN) (by decide), rfl⟩, .inl (hlt N hN)⟩

end GradidoNode.Fnr
