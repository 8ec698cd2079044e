import KeywordDocs.Module.Enumeration

/-!
# The Standard Library

The names that no library defines: those of the language, the modules that can be imported, and the few parts
of standard modules that documentation depends on.
-/

namespace KeywordDocs.Module

def builtinKinds : List String :=
  ["ArithmeticError", "AssertionError", "AttributeError", "BaseException", "BaseExceptionGroup",
   "BlockingIOError", "BrokenPipeError", "BufferError", "BytesWarning", "ChildProcessError",
   "ConnectionAbortedError", "ConnectionError", "ConnectionRefusedError", "ConnectionResetError",
   "DeprecationWarning", "EOFError", "EncodingWarning", "EnvironmentError", "Exception",
   "ExceptionGroup", "FileExistsError", "FileNotFoundError", "FloatingPointError", "FutureWarning",
   "GeneratorExit", "IOError", "ImportError", "ImportWarning", "IndentationError", "IndexError",
   "InterruptedError", "IsADirectoryError", "KeyError", "KeyboardInterrupt", "LookupError",
   "MemoryError", "ModuleNotFoundError", "NameError", "NotADirectoryError", "NotImplementedError",
   "OSError", "OverflowError", "PendingDeprecationWarning", "PermissionError", "ProcessLookupError",
   "RecursionError", "ReferenceError", "ResourceWarning", "RuntimeError", "RuntimeWarning",
   "StopAsyncIteration", "StopIteration", "SyntaxError", "SyntaxWarning", "SystemError",
   "SystemExit", "TabError", "TimeoutError", "TypeError", "UnboundLocalError", "UnicodeDecodeError",
   "UnicodeEncodeError", "UnicodeError", "UnicodeTranslateError", "UnicodeWarning", "UserWarning",
   "ValueError", "Warning", "ZeroDivisionError", "bool", "bytearray", "bytes", "classmethod",
   "complex", "dict", "enumerate", "filter", "float", "frozenset", "int", "list", "map",
   "memoryview", "object", "property", "range", "reversed", "set", "slice", "staticmethod", "str",
   "super", "tuple", "type", "zip"]

def builtinRoutines : List String :=
  ["abs", "aiter", "all", "anext", "any", "ascii", "bin", "breakpoint", "callable", "chr",
   "compile", "copyright", "credits", "delattr", "dir", "divmod", "eval", "exec", "exit", "format",
   "getattr", "globals", "hasattr", "hash", "help", "hex", "id", "input", "isinstance",
   "issubclass", "iter", "len", "license", "locals", "max", "min", "next", "oct", "open", "ord",
   "pow", "print", "quit", "repr", "round", "setattr", "sorted", "sum", "vars", "__import__",
   "__build_class__"]

def builtin? (name : String) : Option Entity :=
  if builtinKinds.contains name then some (.kind (Kind.builtin name))
  else if builtinRoutines.contains name then some (.standard ("builtins." ++ name))
  else match name with
    | "Ellipsis" => some (.data .ellipsis)
    | "NotImplemented" => some .unknown
    | "__debug__" => some (.data (.bool true))
    | _ => none

def standardModules : List String :=
  ["abc", "aifc", "antigravity", "argparse", "array", "ast", "asynchat", "asyncio", "asyncore",
   "atexit", "audioop", "base64", "bdb", "binascii", "bisect", "builtins", "bz2", "cProfile",
   "calendar", "cgi", "cgitb", "chunk", "cmath", "cmd", "code", "codecs", "codeop", "collections",
   "colorsys", "compileall", "concurrent", "configparser", "contextlib", "contextvars", "copy",
   "copyreg", "crypt", "csv", "ctypes", "curses", "dataclasses", "datetime", "dbm", "decimal",
   "difflib", "dis", "distutils", "doctest", "email", "encodings", "ensurepip", "enum", "errno",
   "faulthandler", "fcntl", "filecmp", "fileinput", "fnmatch", "fractions", "ftplib", "functools",
   "gc", "genericpath", "getopt", "getpass", "gettext", "glob", "graphlib", "grp", "gzip",
   "hashlib", "heapq", "hmac", "html", "http", "idlelib", "imaplib", "imghdr", "imp", "importlib",
   "inspect", "io", "ipaddress", "itertools", "json", "keyword", "lib2to3", "linecache", "locale",
   "logging", "lzma", "mailbox", "mailcap", "marshal", "math", "mimetypes", "mmap", "modulefinder",
   "multiprocessing", "netrc", "nis", "nntplib", "ntpath", "numbers", "opcode", "operator",
   "optparse", "os", "ossaudiodev", "pathlib", "pdb", "pickle", "pickletools", "pipes", "pkgutil",
   "platform", "plistlib", "poplib", "posix", "posixpath", "pprint", "profile", "pstats", "pty",
   "pwd", "py_compile", "pyclbr", "pydoc", "pydoc_data", "pyexpat", "queue", "quopri", "random",
   "re", "readline", "reprlib", "resource", "rlcompleter", "runpy", "sched", "secrets", "select",
   "selectors", "shelve", "shlex", "shutil", "signal", "site", "smtpd", "smtplib", "sndhdr",
   "socket", "socketserver", "spwd", "sqlite3", "sre_compile", "sre_constants", "sre_parse", "ssl",
   "stat", "statistics", "string", "stringprep", "struct", "subprocess", "sunau", "symtable",
   "sys", "sysconfig", "syslog", "tabnanny", "tarfile", "telnetlib", "tempfile", "termios",
   "textwrap", "this", "threading", "time", "timeit", "tkinter", "token", "tokenize", "tomllib",
   "trace", "traceback", "tracemalloc", "tty", "turtle", "turtledemo", "types", "typing",
   "unicodedata", "unittest", "urllib", "uu", "uuid", "venv", "warnings", "wave", "weakref",
   "webbrowser", "wsgiref", "xdrlib", "xml", "xmlrpc", "zipapp", "zipfile", "zipimport", "zlib",
   "zoneinfo", "__future__", "robot", "markdown", "pygments", "rich"]

def isStandardModule (path : String) : Bool :=
  standardModules.contains (String.ofList (path.toList.takeWhile (· ≠ '.')))

def typingNames : List String :=
  Text.listed ' ' "Annotated Any Callable ClassVar Concatenate Final ForwardRef Generic Literal
Optional ParamSpec Protocol Tuple Type TypeVar TypeVarTuple Union AbstractSet ByteString Container
ContextManager Hashable ItemsView Iterable Iterator KeysView Mapping MappingView MutableMapping
MutableSequence MutableSet Sequence Sized ValuesView Awaitable AsyncIterator AsyncIterable Coroutine
Collection AsyncGenerator AsyncContextManager Reversible SupportsAbs SupportsBytes SupportsComplex
SupportsFloat SupportsIndex SupportsInt SupportsRound ChainMap Counter Deque Dict DefaultDict List
OrderedDict Set FrozenSet NamedTuple TypedDict Generator BinaryIO IO Match Pattern TextIO AnyStr
assert_type assert_never cast clear_overloads dataclass_transform final get_args get_origin
get_overloads get_type_hints is_typeddict LiteralString Never NewType no_type_check
no_type_check_decorator NoReturn NotRequired overload ParamSpecArgs ParamSpecKwargs Required
reveal_type runtime_checkable Self Text TYPE_CHECKING TypeAlias TypeGuard Unpack"

def enumNames : List String :=
  Text.listed ' ' "EnumType EnumMeta Enum IntEnum StrEnum Flag IntFlag ReprEnum auto unique property
verify member nonmember FlagBoundary STRICT CONFORM EJECT KEEP global_flag_repr global_enum_repr
global_str global_enum EnumCheck CONTINUOUS NAMED_FLAGS UNIQUE pickle_by_global_name
pickle_by_enum_name"

def markingNames : List String := ["keyword", "library", "not_keyword"]

def publicParts? : String → Option (List String)
  | "str" => some (Text.listed ' ' "capitalize casefold center count encode endswith expandtabs find
format format_map index isalnum isalpha isascii isdecimal isdigit isidentifier islower isnumeric
isprintable isspace istitle isupper join ljust lower lstrip maketrans partition removeprefix
removesuffix replace rfind rindex rjust rpartition rsplit rstrip split splitlines startswith strip
swapcase title translate upper zfill")
  | "int" | "bool" => some (Text.listed ' ' "as_integer_ratio bit_count bit_length conjugate
denominator from_bytes imag numerator real to_bytes")
  | "float" => some (Text.listed ' ' "as_integer_ratio conjugate fromhex hex imag is_integer real")
  | "list" => some (Text.listed ' ' "append clear copy count extend index insert pop remove reverse
sort")
  | "dict" => some (Text.listed ' ' "clear copy fromkeys get items keys pop popitem setdefault
update values")
  | "tuple" => some
   ["count", "index"]
  | "set" => some (Text.listed ' ' "add clear copy difference difference_update discard intersection
intersection_update isdisjoint issubset issuperset pop remove symmetric_difference
symmetric_difference_update union update")
  | "bytes" => some (Text.listed ' ' "capitalize center count decode endswith expandtabs find
fromhex hex index isalnum isalpha isascii isdigit islower isspace istitle isupper join ljust lower
lstrip maketrans partition removeprefix removesuffix replace rfind rindex rjust rpartition rsplit
rstrip split splitlines startswith strip swapcase title translate upper zfill")
  | "NoneType" => some
   []
  | _ => none

def baseEnumeration? : String → Option Kind
  | "Enum" => some (.mk "Enum" "enum" [] [] (some {}))
  | "ReprEnum" => some (.mk "ReprEnum" "enum" [] [] (some {}))
  | "IntEnum" => some (.mk "IntEnum" "enum" [] [] (some { mode := .integer, mixin := some "int" }))
  | "StrEnum" => some (.mk "StrEnum" "enum" [] [] (some { mode := .text, mixin := some "str" }))
  | "Flag" => some (.mk "Flag" "enum" [] [] (some { isFlag := true }))
  | "IntFlag" => some (.mk "IntFlag" "enum" [] []
      (some { mode := .integer, mixin := some "int", isFlag := true }))
  | _ => none

def standardPart (path name : String) : Option Entity :=
  match path with
  | "enum" =>
    match baseEnumeration? name with
    | some k => some (.kind k)
    | none => if enumNames.contains name then some (.standard ("enum." ++ name)) else none
  | "sys" =>
    match name with
    | "version_info" => some (.data (.tuple [.int 3, .int 11, .int 10, .str "final", .int 0]))
    | "platform" => some (.data (.str "linux"))
    | _ => some (.standard ("sys." ++ name))
  | "typing" => if name = "TYPE_CHECKING" then some (.data (.bool false))
    else if typingNames.contains name then some (.standard ("typing." ++ name)) else none
  | "robot.api.deco" =>
    if markingNames.contains name then some (.standard ("robot.api.deco." ++ name)) else none
  | _ => some (.standard (path ++ "." ++ name))

def wildcardNames? : String → Option (List String)
  | "enum" => some enumNames
  | "typing" => some typingNames
  | "robot.api.deco" => some markingNames
  | _ => none

end KeywordDocs.Module
