import Libc6Shim.CSemOwnedList
import Libc6Shim.ReceivedAddr

/-!
# Records with addresses

`getaddrinfo` and `getifaddrs` hand out records that point to strings and to
socket addresses. The shim makes its own: it duplicates the strings, and
converts each address into memory it has asked for.

An `InetAddr` is what such an address is about, be it laid out the native way
or the Linux way. The two layouts differ in the first two bytes alone, so that
a converted address is the family and what followed it
(`nativeToLinuxSockaddrIn_eq`, `nativeToLinuxSockaddrIn6_eq`).
-/

namespace Libc6Shim

open CSem Buf Outcome

/-! ## Objects -/

/-- A native record, one of the shim's, or bytes: a string or an address. -/
inductive NetObj (ν ℓ : Type) where
  | native (info : ν)
  | linux (info : ℓ)
  | bytes (b : Buf)

abbrev NetHeap (ν ℓ : Type) := Heap (NetObj ν ℓ)

/-- What `malloc` leaves in a new object. -/
structure Malloced (ℓ : Type) where
  info : Ptr → ℓ
  bytes : Nat → Ptr → Buf
  length_bytes : ∀ n p, (bytes n p).length = n

/-- Memory of zeros, where records of `info` are. -/
def Malloced.zeroed {ℓ : Type} (info : ℓ) : Malloced ℓ where
  info _ := info
  bytes n _ := .replicate n 0
  length_bytes _ _ := List.length_replicate

variable {ν ℓ : Type}

def loadNative (h : NetHeap ν ℓ) (p : Ptr) : Outcome ν := do
  match ← h.load p with
  | .native info => .ok info
  | _ => .error .fault

def loadLinux (h : NetHeap ν ℓ) (p : Ptr) : Outcome ℓ := do
  match ← h.load p with
  | .linux info => .ok info
  | _ => .error .fault

def loadBytes (h : NetHeap ν ℓ) (p : Ptr) : Outcome Buf := do
  match ← h.load p with
  | .bytes b => .ok b
  | _ => .error .fault

def strdup (s : Ptr) (h : NetHeap ν ℓ) : Outcome (Ptr × NetHeap ν ℓ) := do
  let str ← (← loadBytes h s).cstrAt 0
  return h.malloc (.bytes (str ++ [0]))

/-- `malloc(size)` for an address, and what `convert` makes of the native one at
`addr` in it. -/
def mallocAddr (junk : Malloced ℓ) (size : Nat)
    (convert : Buf → Buf → Outcome Buf) (addr : Ptr) (h : NetHeap ν ℓ) :
    Outcome (Ptr × NetHeap ν ℓ) := do
  let (linuxAddr, h) := h.malloc (.bytes (junk.bytes size h.next))
  let dest ← convert (← loadBytes h linuxAddr) (← loadBytes h addr)
  return (linuxAddr, ← h.store linuxAddr (.bytes dest))

section

variable {h : NetHeap ν ℓ} {p : Ptr} {b : Buf}

theorem loadNative_of {info : ν} (hp : h.obj p = some (.native info)) :
    loadNative h p = .ok info := by
  rw [loadNative, Heap.load_of hp]
  rfl

theorem loadLinux_of {info : ℓ} (hp : h.obj p = some (.linux info)) :
    loadLinux h p = .ok info := by
  rw [loadLinux, Heap.load_of hp]
  rfl

theorem loadBytes_of (hp : h.obj p = some (.bytes b)) : loadBytes h p = .ok b := by
  rw [loadBytes, Heap.load_of hp]
  rfl

/-- What a record holds can be read after something else was freed. -/
theorem free_then_load {τ : Type} {info : ℓ} {c : Ptr}
    {f : ℓ → NetHeap ν ℓ → Outcome τ} {g : NetHeap ν ℓ → Outcome τ}
    (hp : h.obj p = some (.linux info)) (hne : p ≠ c)
    (hfg : ∀ h₁ : NetHeap ν ℓ, h₁.obj p = some (.linux info) → f info h₁ = g h₁) :
    (do let h ← h.free c
        let i ← loadLinux h p
        f i h) = h.free c >>= g := by
  cases hfree : h.free c with
  | error e => rfl
  | ok h₁ =>
      have hp₁ := (Heap.obj_of_free hfree hne).trans hp
      rw [ok_bind, ok_bind, loadLinux_of hp₁]
      exact hfg h₁ hp₁

theorem loadNative_null : loadNative h null = .error .fault := by
  rw [loadNative, Heap.load, h.obj_null]
  rfl

/-- A copy of the string, in a new object. -/
theorem strdup_of {str : Buf} (hp : h.obj p = some (.bytes b))
    (hstr : b.cstrAt 0 = .ok str) :
    strdup p h = .ok (h.next, h.grow (.bytes (str ++ [0]))) := by
  rw [strdup, loadBytes_of hp, ok_bind, hstr]
  rfl

/-- The converted address, in a new object. -/
theorem mallocAddr_of {junk : Malloced ℓ} {size : Nat} {d : Buf}
    {convert : Buf → Buf → Outcome Buf} (hp : h.obj p = some (.bytes b))
    (hconvert : ∀ dest, dest.length = size → convert dest b = .ok d) :
    mallocAddr junk size convert p h = .ok (h.next, h.grow (.bytes d)) := by
  rw [mallocAddr, Heap.malloc]
  have hnew := loadBytes_of (Heap.obj_grow_next (h := h)
    (a := (.bytes (junk.bytes size h.next) : NetObj ν ℓ)))
  have hold := loadBytes_of (Heap.obj_grow_of
    (a := (.bytes (junk.bytes size h.next) : NetObj ν ℓ)) hp)
  show loadBytes _ h.next >>= _ = _
  rw [hnew, ok_bind, hold, ok_bind, hconvert _ (junk.length_bytes ..), ok_bind,
    Heap.store_of Heap.obj_grow_next, ok_bind, Heap.put_grow]
  rfl

end

/-! ## Addresses -/

/-- An address of one of the two families, as the bytes of its fields. -/
inductive InetAddr where
  | inet (port addr : Buf)
  | inet6 (port flowinfo addr scopeId : Buf)

namespace InetAddr

def size : InetAddr → Nat
  | .inet .. => sizeofSockaddrIn
  | .inet6 .. => sizeofSockaddrIn6

def family : InetAddr → Word
  | .inet .. => pfInet
  | .inet6 .. => pfInet6

def linuxFamily : InetAddr → Word
  | .inet .. => linuxPfInet
  | .inet6 .. => linuxPfInet6

/-- The fields, which are where they are in both layouts. -/
def Fields (b : Buf) : InetAddr → Prop
  | .inet port addr => slice b 2 2 = port ∧ slice b 4 4 = addr
  | .inet6 port flowinfo addr scopeId => slice b 2 2 = port ∧
      slice b 4 4 = flowinfo ∧ slice b 8 16 = addr ∧ slice b 24 4 = scopeId

/-- A native address, the family of which is known from elsewhere. -/
def IsNative (b : Buf) (x : InetAddr) : Prop := x.size ≤ b.length ∧ x.Fields b

/-- An address the way Linux has it. -/
def IsLinux (b : Buf) (x : InetAddr) : Prop :=
  b.length = x.size ∧ natAt b 0 2 = x.linuxFamily.toNat ∧ x.Fields b

end InetAddr

/-! ## The converters -/

section

variable {dest src : Buf}

theorem nativeToLinuxSockaddrIn_eq (hd : dest.length = sizeofSockaddrIn)
    (hs : sizeofSockaddrIn ≤ src.length) :
    nativeToLinuxSockaddrIn dest src =
      .ok (leBytes 2 linuxPfInet.toNat ++ slice src 2 14) := by
  have hsize : sizeofSockaddrIn = 16 := rfl
  rw [nativeToLinuxSockaddrIn_patch hd.ge hs, patch_whole]
  rw [List.length_append, length_leBytes, length_slice (by omega), hd, hsize]

theorem nativeToLinuxSockaddrIn6_eq (hd : dest.length = sizeofSockaddrIn6)
    (hs : sizeofSockaddrIn6 ≤ src.length) :
    nativeToLinuxSockaddrIn6 dest src =
      .ok (leBytes 2 linuxPfInet6.toNat ++ slice src 2 26) := by
  have hsize : sizeofSockaddrIn6 = 28 := rfl
  rw [nativeToLinuxSockaddrIn6_patch hd.ge hs, patch_whole]
  rw [List.length_append, length_leBytes, length_slice (by omega), hd, hsize]

end

namespace InetAddr

/-- The converter for an address. -/
def convert : InetAddr → Buf → Buf → Outcome Buf
  | .inet .. => nativeToLinuxSockaddrIn
  | .inet6 .. => nativeToLinuxSockaddrIn6

/-- An address is converted to itself. -/
theorem IsNative.convert {x : InetAddr} {src : Buf} (hx : x.IsNative src) :
    ∃ d, x.IsLinux d ∧
      ∀ dest, dest.length = x.size → x.convert dest src = .ok d := by
  obtain ⟨hsize, hfields⟩ := hx
  have hfam : ∀ v, (leBytes 2 v).length = 2 := length_leBytes 2
  cases x with
  | inet port addr =>
      obtain ⟨hport, haddr⟩ := hfields
      have hs : 16 ≤ src.length := hsize
      refine ⟨_, ⟨?_, ?_, ?_, ?_⟩, fun dest hd => nativeToLinuxSockaddrIn_eq hd hs⟩
      · rw [List.length_append, hfam, length_slice (by omega)]
        rfl
      · rfl
      · rwa [slice_converted (hfam _) (by omega) (by omega)]
      · rwa [slice_converted (hfam _) (by omega) (by omega)]
  | inet6 port flowinfo addr scopeId =>
      obtain ⟨hport, hflowinfo, haddr, hscope⟩ := hfields
      have hs : 28 ≤ src.length := hsize
      refine ⟨_, ⟨?_, ?_, ?_, ?_, ?_, ?_⟩,
        fun dest hd => nativeToLinuxSockaddrIn6_eq hd hs⟩
      · rw [List.length_append, hfam, length_slice (by omega)]
        rfl
      · rfl
      · rwa [slice_converted (hfam _) (by omega) (by omega)]
      · rwa [slice_converted (hfam _) (by omega) (by omega)]
      · rwa [slice_converted (hfam _) (by omega) (by omega)]
      · rwa [slice_converted (hfam _) (by omega) (by omega)]

end InetAddr

/-! ## What pointers point to -/

/-- There are bytes at `p`, which `Q` says are `x`. -/
def BytesAt {τ : Type} (h : NetHeap ν ℓ) (Q : Buf → τ → Prop) (p : Ptr) (x : τ) :
    Prop :=
  ∃ b, h.obj p = some (.bytes b) ∧ Q b x

/-- The bytes begin with the string `s`. -/
def IsString (b s : Buf) : Prop := b.cstrAt 0 = .ok s

/-- Or the pointer is null, and there is nothing. -/
def OrNull {τ : Type} (P : Ptr → τ → Prop) (p : Ptr) : Option τ → Prop
  | none => p = null
  | some x => P p x

/-- `p != NULL ? f(p) : NULL` -/
def orNull (f : Ptr → NetHeap ν ℓ → Outcome (Ptr × NetHeap ν ℓ)) (p : Ptr)
    (h : NetHeap ν ℓ) : Outcome (Ptr × NetHeap ν ℓ) :=
  if p ≠ null then f p h else .ok (null, h)

/-- Between `h` and `h'` the part `c` of a record was made, if there is to be
one. -/
structure PartMade {τ : Type} (h h' : NetHeap ν ℓ) (Q : Buf → τ → Prop) (c : Ptr)
    (x : Option τ) (ps : List (Ptr × NetObj ν ℓ)) : Prop where
  pieces : Pieces h h' ps
  parts : [c].filter (· ≠ null) = ps.map Prod.fst
  tells : OrNull (BytesAt h' Q) c x

section

variable {τ : Type} {h h' : NetHeap ν ℓ} {Q R : Buf → τ → Prop} {p c : Ptr}
  {x : τ} {o : Option τ}

theorem BytesAt.ne_null (hp : BytesAt h Q p x) : p ≠ null := by
  obtain ⟨b, hb, -⟩ := hp
  exact Heap.ne_null hb

theorem BytesAt.congr (hp : BytesAt h Q p x) (hsame : h'.obj p = h.obj p) :
    BytesAt h' Q p x := by
  obtain ⟨b, hb, hQ⟩ := hp
  exact ⟨b, hsame.trans hb, hQ⟩

theorem orNull_congr (hp : OrNull (BytesAt h Q) p o)
    (hsame : p ≠ null → h'.obj p = h.obj p) : OrNull (BytesAt h' Q) p o := by
  cases o with
  | none => exact hp
  | some x => exact BytesAt.congr hp (hsame (BytesAt.ne_null hp))

theorem orNull_since (hp : OrNull (BytesAt h Q) p o) (hs : h.Since h') :
    OrNull (BytesAt h' Q) p o := by
  cases o with
  | none => exact hp
  | some x =>
      obtain ⟨b, hb, hQ⟩ := hp
      exact ⟨b, hs.obj_of hb, hQ⟩

theorem PartMade.of_grow {b : Buf} (hR : R b x) :
    PartMade h (h.grow (.bytes b)) R h.next (some x) [(h.next, .bytes b)] where
  pieces := .grow h _
  parts := by
    have hne : h.next ≠ null := Nat.ne_of_gt h.next_pos
    rw [List.filter_cons_of_pos (by exact decide_eq_true hne)]
    rfl
  tells := ⟨b, Heap.obj_grow_next, hR⟩

/-- A part stays when more is made, and when the record is written. -/
theorem PartMade.stays {h₀ : NetHeap ν ℓ} {ps : List (Ptr × NetObj ν ℓ)}
    (hm : PartMade h₀ h Q c o ps) (hs : h.Since h') (hp : p < h₀.next)
    (a : NetObj ν ℓ) : OrNull (BytesAt (h'.put p a) Q) c o := by
  refine orNull_congr (orNull_since hm.tells hs) fun hne => ?_
  have hmem : c ∈ ps.map Prod.fst := by
    rw [← hm.parts]
    simp [hne]
  obtain ⟨⟨c, b⟩, hcb, rfl⟩ := List.mem_map.mp hmem
  exact Heap.obj_put_of_ne (Nat.ne_of_gt (hp.trans_le (hm.pieces.new c b hcb).1))

/-- A part that may be missing is made by making it if it is not. -/
theorem orNull_made {f : Ptr → NetHeap ν ℓ → Outcome (Ptr × NetHeap ν ℓ)}
    (hf : ∀ x, BytesAt h Q p x →
      ∃ b, R b x ∧ f p h = .ok (h.next, h.grow (.bytes b)))
    (hp : OrNull (BytesAt h Q) p o) :
    ∃ c h' ps, orNull f p h = .ok (c, h') ∧ PartMade h h' R c o ps := by
  cases o with
  | none =>
      refine ⟨null, h, [], ?_, .nil h, ?_, rfl⟩
      · exact if_neg (fun hne => hne hp)
      · rfl
  | some x =>
      obtain ⟨b, hR, hrun⟩ := hf x hp
      exact ⟨_, _, _, (if_pos (BytesAt.ne_null hp)).trans hrun, .of_grow hR⟩

end

section

variable {h : NetHeap ν ℓ} {p : Ptr}

/-- The copy of a string is that string. -/
theorem isString_copy {b s : Buf} (hs : IsString b s) : IsString (s ++ [0]) s := by
  have hnot : 0 ∉ s := (cstrAt_inv hs).1
  exact cstrAt_of_drop List.drop_zero hnot

theorem strdup_makes {s : Buf} (hp : BytesAt h IsString p s) :
    ∃ b, IsString b s ∧ strdup p h = .ok (h.next, h.grow (.bytes b)) := by
  obtain ⟨b, hb, hs⟩ := hp
  exact ⟨s ++ [0], isString_copy hs, strdup_of hb hs⟩

theorem mallocAddr_makes (junk : Malloced ℓ) {x : InetAddr}
    (hp : BytesAt h InetAddr.IsNative p x) :
    ∃ b, x.IsLinux b ∧ mallocAddr junk x.size x.convert p h =
      .ok (h.next, h.grow (.bytes b)) := by
  obtain ⟨b, hb, hx⟩ := hp
  obtain ⟨d, hd, hconvert⟩ := hx.convert
  exact ⟨d, hd, mallocAddr_of hb hconvert⟩

end

end Libc6Shim
