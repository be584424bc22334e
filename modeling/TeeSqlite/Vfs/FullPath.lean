import TeeSqlite.Rpc.Failure

/-! `demoFullPathname` over the requests of the secure side: which name it leaves in the
output block, and when that is the full name of the path. -/
namespace TeeSqlite
open ByteFile CTypes

/-- A letter before a list, cut off to the length of the list. -/
theorem take_cons_eq_self {α : Type} {a : α} {l : List α} :
    (a :: l).take l.length = l ↔ ∀ b ∈ l, b = a := by
  induction l generalizing a with
  | nil => simp
  | cons b l ih =>
    rw [List.length_cons, List.take_succ_cons, List.cons.injEq, List.forall_mem_cons]
    constructor
    · rintro ⟨rfl, rest⟩
      exact ⟨rfl, ih.mp rest⟩
    · rintro ⟨rfl, rest⟩
      exact ⟨rfl, ih.mpr rest⟩

theorem take_cons_eq_iff {α : Type} {a : α} {l : List α} {n : Nat} :
    (a :: l).take n = l ↔ n = l.length ∧ ∀ b ∈ l, b = a := by
  constructor
  · intro whole
    have same : n = l.length := by
      have lengths := congrArg List.length whole
      rw [List.length_take, List.length_cons] at lengths
      omega
    subst same
    exact ⟨rfl, take_cons_eq_self.mp whole⟩
  · rintro ⟨rfl, same⟩
    exact take_cons_eq_self.mpr same

section
variable (os : LibcCall → OsResult) (runs : Bool) (alloc : AllocPayload)

/-- Without a supplicant every request fails. -/
def normalWorld : RpcCmd (List Handled) := fun requests m =>
  if runs then supplicant os requests m else (requests, m, TEEC_ERROR_COMMUNICATION)

/-- The status of `demoFullPathname` and what it leaves in the output block. -/
def fullPathname (requests : List Handled) (zDir : CStruct (MAXPATHNAME + 1)) (zPath : CStr)
    (nPathOut : Nat) : Rc × Option CStr :=
  (demoFullPathname (utee (normalWorld os runs) alloc) requests zDir.1 zPath nPathOut).2

/-- The current directory is obtained: the payload is there, and the supplicant's `getcwd`
writes an absolute path of at most `MAXPATHNAME` bytes. -/
structure Obtains (dir : CStr) : Prop where
  running : runs = true
  given : Given alloc 0 (MAXPATHNAME + 1)
  found : (os (.getcwd (BitVec.ofNat 64 (MAXPATHNAME + 1)))).ret ≠ 0
  written : dir.mem <+: (os (.getcwd (BitVec.ofNat 64 (MAXPATHNAME + 1)))).out
  fits : dir.bytes.length ≤ MAXPATHNAME
  absolute : dir.bytes.head? = some 47

/-- The full name of a path: itself when it begins with a slash, else the current
directory, a slash and the path. -/
def FullName (zPath : CStr) (name : Bytes) : Prop :=
  if zPath.bytes.head? = some 47 then name = zPath.bytes
  else ∃ dir, Obtains os runs alloc dir ∧ name = dir.bytes ++ 47 :: zPath.bytes

/-- Success leaves the full name, whole; no name, or one that does not fit with its
terminator, is an error. -/
structure Resolves (requests : List Handled) (zDir : CStruct (MAXPATHNAME + 1)) (zPath : CStr)
    (nPathOut : Nat) : Prop where
  ok : (fullPathname os runs alloc requests zDir zPath nPathOut).1 = .SQLITE_OK →
    ∃ zPathOut, (fullPathname os runs alloc requests zDir zPath nPathOut).2 = some zPathOut ∧
      FullName os runs alloc zPath zPathOut.bytes
  no_name : (∀ name, ¬ FullName os runs alloc zPath name) →
    (fullPathname os runs alloc requests zDir zPath nPathOut).1 ≠ .SQLITE_OK
  too_long : ∀ name, FullName os runs alloc zPath name → nPathOut < name.length + 1 →
    (fullPathname os runs alloc requests zDir zPath nPathOut).1 ≠ .SQLITE_OK

/-- The output of a success is its own full pathname, in any later call. -/
def Unchanged (requests : List Handled) (zDir : CStruct (MAXPATHNAME + 1)) (zPath : CStr)
    (nPathOut : Nat) : Prop :=
  ∀ zPathOut,
    fullPathname os runs alloc requests zDir zPath nPathOut = (.SQLITE_OK, some zPathOut) →
    ∀ requests' zDir', fullPathname os runs alloc requests' zDir' zPathOut nPathOut =
      (.SQLITE_OK, some zPathOut)

/-- A relative path behind a directory that was obtained, with room for both; or slashes
that fill the block. -/
def Whole (zPath : CStr) (nPathOut : Nat) : Prop :=
  if zPath.bytes.head? = some 47 then
    nPathOut = zPath.bytes.length + 1 ∧ ∀ b ∈ zPath.bytes, b = 47
  else ∃ dir, Obtains os runs alloc dir ∧
    dir.bytes.length + 1 + zPath.bytes.length + 1 ≤ nPathOut

/-- A full name of slashes that fills the block. -/
def Slashes (zPath : CStr) (nPathOut : Nat) : Prop :=
  ∃ name, FullName os runs alloc zPath name ∧ nPathOut = name.length + 1 ∧
    ∀ b ∈ name, b = 47

end

section
variable {os : LibcCall → OsResult} {runs : Bool} {alloc : AllocPayload}
  {requests : List Handled} {zDir : CStruct (MAXPATHNAME + 1)} {zPath : CStr} {nPathOut : Nat}

/-- An absolute path gets a second slash. -/
theorem fullPathname_absolute (absolute : zPath.bytes.head? = some 47) :
    fullPathname os runs alloc requests zDir zPath nPathOut =
      (.SQLITE_OK, some (.ofBytes ((47 :: zPath.bytes).take (nPathOut - 1)))) := by
  have empty : CStr.ofBytes ((zDir.1.set 0 0).set MAXPATHNAME 0) = .empty := by
    rcases zDir with ⟨_ | ⟨b, zDir⟩, size⟩
    · cases size
    · rfl
  rw [fullPathname, demoFullPathname, if_pos absolute]
  simp only [empty]
  rfl

/-- What `getcwd` leaves in the directory. -/
def cwd (os : LibcCall → OsResult) (runs : Bool) (alloc : AllocPayload)
    (requests : List Handled) (zDir : Bytes) : Bytes :=
  (syscall_vfs_getcwd (normalWorld os runs) alloc requests zDir).2

/-- Any outcome of `getcwd` is taken for success. -/
theorem fullPathname_relative (relative : zPath.bytes.head? ≠ some 47) :
    fullPathname os runs alloc requests zDir zPath nPathOut =
      (.SQLITE_OK, some (.ofBytes (((CStr.ofBytes
        ((cwd os runs alloc requests zDir.1).set MAXPATHNAME 0)).bytes ++ 47 :: zPath.bytes).take
          (nPathOut - 1)))) := by
  rw [fullPathname, demoFullPathname, if_neg relative]
  rfl

theorem fullPathname_ok :
    (fullPathname os runs alloc requests zDir zPath nPathOut).1 = .SQLITE_OK := by
  by_cases absolute : zPath.bytes.head? = some 47
  · rw [fullPathname_absolute absolute]
  · rw [fullPathname_relative absolute]

/-- The directory and its terminator survive the byte that is set behind them. -/
theorem ofBytes_set {dir : CStr} {buf : Bytes} (fits : dir.bytes.length ≤ MAXPATHNAME)
    (starts : dir.mem <+: buf) : CStr.ofBytes (buf.set MAXPATHNAME 0) = dir := by
  obtain ⟨rest, rfl⟩ := starts
  rcases Nat.lt_or_eq_of_le fits with inside | last
  · have kept : (dir.mem ++ rest).set MAXPATHNAME 0 =
        dir.mem ++ rest.set (MAXPATHNAME - dir.mem.length) 0 := by
      apply List.set_append_right
      rw [CStr.length_mem]
      omega
    rw [kept, CStr.ofBytes_mem_append]
  · have kept : (dir.mem ++ rest).set MAXPATHNAME 0 = dir.mem ++ rest := by
      rw [CStr.mem, ← last, List.append_assoc, List.set_append_right _ _ (Nat.le_refl _),
        Nat.sub_self]
      rfl
    rw [kept, CStr.ofBytes_mem_append]

theorem Obtains.cwd_eq {dir : CStr} (obtains : Obtains os runs alloc dir)
    (requests : List Handled) (zDir : CStruct (MAXPATHNAME + 1)) :
    CStr.ofBytes ((cwd os runs alloc requests zDir.1).set MAXPATHNAME 0) = dir := by
  apply ofBytes_set obtains.fits
  obtain ⟨va, -, -, payload⟩ := obtains.given.withPayload_eq
  have world : normalWorld os runs = supplicant os := by
    rw [obtains.running]
    rfl
  have out : cwd os runs alloc requests zDir.1 = (splice (zeroed va (MAXPATHNAME + 1)) 0
      ((os (.getcwd (BitVec.ofNat 64 (MAXPATHNAME + 1)))).out.take (MAXPATHNAME + 1))).take
        (MAXPATHNAME + 1) := by
    rw [cwd, world, syscall_vfs_getcwd, zDir.2, payload]
    simp [vfs_getcwd, MAXPATHNAME]
  rw [out]
  apply List.IsPrefix.trans _ (prefix_splice_take _ (List.length_take_le _ _))
  apply List.prefix_take_iff.mpr
  refine ⟨obtains.written, ?_⟩
  rw [CStr.length_mem]
  exact Nat.succ_le_succ obtains.fits

/-- There is one current directory. -/
theorem Obtains.unique {dir dir' : CStr} (obtains : Obtains os runs alloc dir)
    (obtains' : Obtains os runs alloc dir') : dir = dir' := by
  let zDir : CStruct (MAXPATHNAME + 1) := ⟨List.replicate _ 0, List.length_replicate⟩
  exact (obtains.cwd_eq [] zDir).symm.trans (obtains'.cwd_eq [] zDir)

namespace FullName
variable {name name' : Bytes}

theorem unique (names : FullName os runs alloc zPath name)
    (names' : FullName os runs alloc zPath name') : name = name' := by
  unfold FullName at names names'
  split at names
  · rename_i absolute
    rw [if_pos absolute] at names'
    rw [names, names']
  · rename_i relative
    rw [if_neg relative] at names'
    obtain ⟨dir, obtains, rfl⟩ := names
    obtain ⟨dir', obtains', rfl⟩ := names'
    rw [obtains.unique obtains']

/-- A full name begins with a slash. -/
theorem absolute (names : FullName os runs alloc zPath name) : name.head? = some 47 := by
  unfold FullName at names
  split at names
  · rename_i absolute
    rw [names, absolute]
  · obtain ⟨dir, obtains, rfl⟩ := names
    rw [List.head?_append, obtains.absolute]
    rfl

end FullName

/-- An absolute path comes back as it is only when the second slash pushes a slash out. -/
theorem fullPathname_eq_self_iff (absolute : zPath.bytes.head? = some 47) :
    fullPathname os runs alloc requests zDir zPath nPathOut = (.SQLITE_OK, some zPath) ↔
      nPathOut = zPath.bytes.length + 1 ∧ ∀ b ∈ zPath.bytes, b = 47 := by
  have noNul : 0 ∉ (47 :: zPath.bytes).take (nPathOut - 1) := by
    intro mem
    rcases List.mem_cons.mp (List.mem_of_mem_take mem) with nul | mem
    · cases nul
    · exact zPath.noNul mem
  have nonempty : 0 < zPath.bytes.length := by
    cases bytes : zPath.bytes with
    | nil => simp [bytes] at absolute
    | cons b rest => exact Nat.zero_lt_succ _
  have sizes : nPathOut - 1 = zPath.bytes.length ↔ nPathOut = zPath.bytes.length + 1 := by omega
  rw [fullPathname_absolute absolute, ← sizes, ← take_cons_eq_iff]
  constructor
  · intro same
    have out : CStr.ofBytes ((47 :: zPath.bytes).take (nPathOut - 1)) = zPath :=
      Option.some.inj (congrArg Prod.snd same)
    rw [← CStr.bytes_ofBytes noNul, out]
  · intro whole
    have out : CStr.ofBytes ((47 :: zPath.bytes).take (nPathOut - 1)) = zPath :=
      CStr.ext ((CStr.bytes_ofBytes noNul).trans whole)
    rw [out]

/-- A relative path comes back after the directory, cut off to the block. -/
theorem fullPathname_obtained {dir : CStr} (relative : zPath.bytes.head? ≠ some 47)
    (obtains : Obtains os runs alloc dir) :
    ∃ zPathOut, fullPathname os runs alloc requests zDir zPath nPathOut =
      (.SQLITE_OK, some zPathOut) ∧
        zPathOut.bytes = (dir.bytes ++ 47 :: zPath.bytes).take (nPathOut - 1) := by
  refine ⟨_, by rw [fullPathname_relative relative, obtains.cwd_eq], CStr.bytes_ofBytes ?_⟩
  intro mem
  rcases List.mem_append.mp (List.mem_of_mem_take mem) with mem | mem
  · exact dir.noNul mem
  · rcases List.mem_cons.mp mem with nul | mem
    · cases nul
    · exact zPath.noNul mem

theorem Resolves.output (resolves : Resolves os runs alloc requests zDir zPath nPathOut) :
    ∃ zPathOut, fullPathname os runs alloc requests zDir zPath nPathOut =
      (.SQLITE_OK, some zPathOut) ∧ FullName os runs alloc zPath zPathOut.bytes := by
  obtain ⟨zPathOut, out, names⟩ := resolves.ok fullPathname_ok
  exact ⟨zPathOut, Prod.ext fullPathname_ok out, names⟩

/-- An output that is the full name, in a block that it fits. -/
theorem resolves_of_output {zPathOut : CStr}
    (output : fullPathname os runs alloc requests zDir zPath nPathOut =
      (.SQLITE_OK, some zPathOut))
    (names : FullName os runs alloc zPath zPathOut.bytes)
    (fits : zPathOut.bytes.length + 1 ≤ nPathOut) :
    Resolves os runs alloc requests zDir zPath nPathOut where
  ok _ := ⟨zPathOut, congrArg Prod.snd output, names⟩
  no_name none := absurd names (none _)
  too_long name names' long := by
    rw [names'.unique names] at long
    omega

theorem resolves_absolute_iff (absolute : zPath.bytes.head? = some 47) :
    Resolves os runs alloc requests zDir zPath nPathOut ↔ Whole os runs alloc zPath nPathOut := by
  rw [Whole, if_pos absolute]
  constructor
  · intro resolves
    obtain ⟨zPathOut, output, names⟩ := resolves.output
    rw [FullName, if_pos absolute] at names
    rw [CStr.ext names] at output
    exact (fullPathname_eq_self_iff absolute).mp output
  · intro whole
    have names : FullName os runs alloc zPath zPath.bytes := by rw [FullName, if_pos absolute]
    exact resolves_of_output ((fullPathname_eq_self_iff absolute).mpr whole) names
      (Nat.le_of_eq whole.1.symm)

theorem resolves_relative_iff (relative : zPath.bytes.head? ≠ some 47) :
    Resolves os runs alloc requests zDir zPath nPathOut ↔ Whole os runs alloc zPath nPathOut := by
  rw [Whole, if_neg relative]
  constructor
  · intro resolves
    obtain ⟨zPathOut, output, names⟩ := resolves.output
    rw [FullName, if_neg relative] at names
    obtain ⟨dir, obtains, whole⟩ := names
    obtain ⟨zPathOut', output', cut⟩ := fullPathname_obtained relative obtains
    have same : zPathOut' = zPathOut :=
      Option.some.inj (congrArg Prod.snd (output'.symm.trans output))
    rw [same, whole] at cut
    have lengths := congrArg List.length cut
    rw [List.length_take, List.length_append, List.length_cons] at lengths
    exact ⟨dir, obtains, by omega⟩
  · rintro ⟨dir, obtains, fits⟩
    obtain ⟨zPathOut, output, cut⟩ := fullPathname_obtained relative obtains
    have length : (dir.bytes ++ 47 :: zPath.bytes).length =
        dir.bytes.length + 1 + zPath.bytes.length := by
      rw [List.length_append, List.length_cons]
      omega
    have room : (dir.bytes ++ 47 :: zPath.bytes).length ≤ nPathOut - 1 := by omega
    rw [List.take_of_length_le room] at cut
    have names : FullName os runs alloc zPath zPathOut.bytes := by
      rw [FullName, if_neg relative]
      exact ⟨dir, obtains, cut⟩
    apply resolves_of_output output names
    rw [cut, length]
    exact fits

theorem resolves_iff : Resolves os runs alloc requests zDir zPath nPathOut ↔
    Whole os runs alloc zPath nPathOut := by
  by_cases absolute : zPath.bytes.head? = some 47
  · exact resolves_absolute_iff absolute
  · exact resolves_relative_iff absolute

theorem Slashes.whole (slashes : Slashes os runs alloc zPath nPathOut) :
    Whole os runs alloc zPath nPathOut := by
  obtain ⟨name, names, size, slash⟩ := slashes
  unfold FullName at names
  split at names
  · rename_i absolute
    rw [names] at size slash
    rw [Whole, if_pos absolute]
    exact ⟨size, slash⟩
  · rename_i relative
    rw [Whole, if_neg relative]
    obtain ⟨dir, obtains, rfl⟩ := names
    refine ⟨dir, obtains, ?_⟩
    rw [size, List.length_append, List.length_cons]
    omega

/-- The name that came out, resolved in its turn, gets a second slash. -/
theorem resolves_unchanged_iff :
    Resolves os runs alloc requests zDir zPath nPathOut ∧
      Unchanged os runs alloc requests zDir zPath nPathOut ↔
        Slashes os runs alloc zPath nPathOut := by
  constructor
  · rintro ⟨resolves, unchanged⟩
    obtain ⟨zPathOut, output, names⟩ := resolves.output
    have again := unchanged zPathOut output requests zDir
    exact ⟨zPathOut.bytes, names, (fullPathname_eq_self_iff names.absolute).mp again⟩
  · intro slashes
    have resolves : Resolves os runs alloc requests zDir zPath nPathOut :=
      resolves_iff.mpr slashes.whole
    refine ⟨resolves, ?_⟩
    intro zPathOut output requests' zDir'
    obtain ⟨zPathOut', output', names'⟩ := resolves.output
    have same : zPathOut' = zPathOut :=
      Option.some.inj (congrArg Prod.snd (output'.symm.trans output))
    subst same
    obtain ⟨name, names, size, slash⟩ := slashes
    obtain rfl := names.unique names'
    exact (fullPathname_eq_self_iff names'.absolute).mpr ⟨size, slash⟩

/-- **Path resolution.** When the output is the full name, when it is its own output as
well, and that the outputs that are full names tell their paths apart. -/
theorem fullPathname_iff :
    (Resolves os runs alloc requests zDir zPath nPathOut ↔ Whole os runs alloc zPath nPathOut) ∧
    (Resolves os runs alloc requests zDir zPath nPathOut ∧
      Unchanged os runs alloc requests zDir zPath nPathOut ↔
        Slashes os runs alloc zPath nPathOut) ∧
    ∀ requests' zDir' zPath' nPathOut' name name',
      Resolves os runs alloc requests zDir zPath nPathOut →
      Resolves os runs alloc requests' zDir' zPath' nPathOut' →
      FullName os runs alloc zPath name → FullName os runs alloc zPath' name' →
      name ≠ name' →
      fullPathname os runs alloc requests zDir zPath nPathOut ≠
        fullPathname os runs alloc requests' zDir' zPath' nPathOut' := by
  refine ⟨resolves_iff, resolves_unchanged_iff, ?_⟩
  intro requests' zDir' zPath' nPathOut' name name' resolves resolves' names names' different same
  obtain ⟨zPathOut, output, out⟩ := resolves.output
  obtain ⟨zPathOut', output', out'⟩ := resolves'.output
  have one : zPathOut = zPathOut' :=
    Option.some.inj (congrArg Prod.snd (output.symm.trans (same.trans output')))
  exact different ((names.unique out).trans ((congrArg CStr.bytes one).trans (out'.unique names')))

end

/-- `/db` is resolved to `//db`, whatever the normal world does. -/
theorem absolute_path_gets_a_slash :
    ¬ Resolves (fun _ => ⟨0, 0, [], [], 0, none⟩) true freshBlocks []
      ⟨List.replicate (MAXPATHNAME + 1) 0, List.length_replicate⟩
      ⟨[47, 100, 98], by decide⟩ (MAXPATHNAME + 1) := by
  intro resolves
  obtain ⟨zPathOut, output, names⟩ := resolves.output
  have name : zPathOut.bytes = [47, 100, 98] := by simpa [FullName] using names
  have out : zPathOut.bytes = [47, 47, 100, 98] := by
    rw [← Option.some.inj (congrArg Prod.snd ((fullPathname_absolute rfl).symm.trans output))]
    rfl
  rw [out] at name
  exact absurd name (by decide)

end TeeSqlite
