import Ksrc.Source.LuaDispatch

/-!
# Arguments of the functions for Lua programs

Source: `lua/auxlib.c` (`tocflags`, `arg2cap`) and `lua/lua_kernel.c` (`kernel_random`). A number
is its `lua_Integer` of 64 bits. The Lua library and `strcasecmp` do what their documentation says;
the random numbers of the kernel are a parameter.
-/
namespace Ksrc.Source

open Library

/-- The stack of a C function, its top first, and what `lua_rawgeti` finds from 1 on in the table
at an index, up to the first nil. -/
structure LuaArgs where
  stack : List LuaTValue
  array : Int → List LuaTValue

/-- An error that a function raises about an argument. -/
inductive LuaArgError where
  | argerror (arg : Nat) (extramsg : String)
  | typerror (arg : Nat) (tname : String)
  | error (msg : String)
  deriving DecidableEq, Repr

/-- The value at an index, none where `lua_type` is `LUA_TNONE`. -/
def LuaArgs.value (L : LuaArgs) (idx : Nat) : Option LuaTValue := OperandStack.valueAt L.stack idx

/-- `luaL_checkinteger`. -/
def luaLCheckinteger (L : LuaArgs) (arg : Nat) : Except LuaArgError Int :=
  match L.value arg with
  | some (.number n) => .ok n
  | some (.string _ (some n)) => .ok n
  | _ => .error (.typerror arg "number")

/-- A `lua_Integer` cut to an `int`. -/
def luaInt (n : Int) : BitVec 32 := BitVec.ofInt 32 n

/-- `luaL_checkint`. -/
def luaLCheckint (L : LuaArgs) (arg : Nat) : Except LuaArgError (BitVec 32) :=
  (luaLCheckinteger L arg).map luaInt

/-- `tolower`, for the Latin-1 characters of the kernel. -/
def toLower (c : U8) : U8 :=
  if (0x41 ≤ c.toNat ∧ c.toNat ≤ 0x5a) ∨ (0xc0 ≤ c.toNat ∧ c.toNat ≤ 0xde ∧ c.toNat ≠ 0xd7) then
    c + 0x20
  else c

/-- `strcasecmp`, on strings without their terminators. -/
def strcasecmp : Name → Name → Int
  | [], [] => 0
  | [], b :: _ => -(toLower b).toNat
  | a :: _, [] => (toLower a).toNat
  | a :: as, b :: bs =>
    if toLower a = toLower b then strcasecmp as bs else (toLower a).toNat - (toLower b).toNat

/-- `struct cflag_opt`; a list of them has no terminator. -/
structure CflagOpt where
  name : Name
  flag : U32
  deriving DecidableEq, Repr

/-- The loop of `tocflags` over the options for one string. -/
def orNamed (s : Name) (flags : U32) : List CflagOpt → U32
  | [] => flags
  | opt :: rest => if strcasecmp s opt.name ≠ 0 then orNamed s flags rest else flags ||| opt.flag

/-- What `tocflags` does for one value of a table. -/
def orElement (opts : List CflagOpt) (flags : U32) : LuaTValue → U32
  | .string s _ => orNamed (cString s) flags opts
  | _ => flags

/-- What `tocflags` does for one argument. -/
def orArgument (L : LuaArgs) (opts : List CflagOpt) (d flags : U32) (idx : Nat) : U32 :=
  match L.value idx with
  | some (.string s _) => orNamed (cString s) flags opts
  | some .table => (L.array idx).foldl (orElement opts) flags
  | some (.number n) => flags ||| BitVec.ofInt 32 n
  | some (.boolean b) => if b then flags else d
  | none => d
  | some .nil => d
  | some _ => flags

/-- `tocflags`; no `top` stands for -1. -/
def tocflags (L : LuaArgs) (idx : Nat) (top : Option Nat) (opts : List CflagOpt) (d : U32) : U32 :=
  (List.range' idx (top.getD idx + 1 - idx)).foldl (orArgument L opts d) 0

/-- `CAP_LAST_CAP`. -/
def capLastCap : Int := 40

/-- `cap_valid`. -/
def capValid (cap : Int) : Bool := decide (0 ≤ cap ∧ cap ≤ capLastCap)

/-- The capabilities in the order of their numbers. -/
def capNames : List String :=
  ["chown", "dac_override", "dac_read_search", "fowner", "fsetid", "kill", "setgid", "setuid",
    "setpcap", "linux_immutable", "net_bind_service", "net_broadcast", "net_admin", "net_raw",
    "ipc_lock", "ipc_owner", "sys_module", "sys_rawio", "sys_chroot", "sys_ptrace", "sys_pacct",
    "sys_admin", "sys_boot", "sys_nice", "sys_resource", "sys_time", "sys_tty_config", "mknod",
    "lease", "audit_write", "audit_control", "setfcap", "mac_override", "mac_admin", "syslog",
    "wake_alarm", "block_suspend", "audit_read", "perfmon", "bpf", "checkpoint_restore"]

/-- `caps` of `arg2cap`. -/
def caps : List CflagOpt :=
  capNames.zipIdx.map fun cap => { name := cstr cap.1.toList, flag := BitVec.ofNat 32 cap.2 }

/-- `arg2cap`. -/
def arg2cap (L : LuaArgs) (idx : Nat) : Except LuaArgError Int :=
  let checked (cap : Int) : Except LuaArgError Int :=
    if capValid cap then .ok cap else .error (.argerror idx "invalid capability")
  match L.value idx with
  | some (.number n) => checked (luaInt n).toInt
  | some (.string _ _) =>
    let cap := (tocflags L idx (some idx) caps (-1)).toInt
    if cap = -1 then .error (.argerror idx "invalid capability") else checked cap
  | _ => .error (.argerror idx "integer or string expected")

/-- The random numbers of the kernel, as the calls of a run get them. -/
structure RandomSource where
  getRandomU32 : U32
  below : U32 → U32
  inclusive : U32 → U32 → U32

/-- A call of a random number function. -/
inductive RandomCall where
  | u32
  | below (ceil : U32)
  | inclusive (floor ceil : U32)
  deriving DecidableEq, Repr

/-- `kernel_random`: the call it makes for its number, and the integer it pushes. -/
def kernelRandom (rng : RandomSource) (L : LuaArgs) :
    Option RandomCall × Except LuaArgError Int :=
  match L.stack.length with
  | 0 => (some .u32, .ok rng.getRandomU32.toNat)
  | 1 =>
    match luaLCheckint L 1 with
    | .error e => (none, .error e)
    | .ok u =>
      if 0 ≤ u.toInt then (some (.below u), .ok (rng.below u + 1).toNat)
      else (none, .error (.argerror 1 "interval is empty"))
  | 2 =>
    match luaLCheckint L 1 with
    | .error e => (none, .error e)
    | .ok l =>
      match luaLCheckint L 2 with
      | .error e => (none, .error e)
      | .ok u =>
        if l.toInt ≤ u.toInt then (some (.inclusive l u), .ok (rng.inclusive l u).toNat)
        else (none, .error (.argerror 2 "interval is empty"))
  | _ => (none, .error (.error "wrong number of arguments"))

end Ksrc.Source
