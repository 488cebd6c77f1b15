import GraphQLModels.Options
import GraphQLModels.Text.Blank

/-!
# Imports of scalar targets

A target is a built-in name, a registered name with its import statement, or a dotted path whose
last part is imported from the rest. Any other name is written as it stands.
-/

namespace GraphQLModels

def builtinNames : List String :=
  ["ArithmeticError", "AssertionError", "AttributeError", "BaseException", "BaseExceptionGroup",
    "BlockingIOError", "BrokenPipeError", "BufferError", "BytesWarning", "ChildProcessError",
    "ConnectionAbortedError", "ConnectionError", "ConnectionRefusedError", "ConnectionResetError",
    "DeprecationWarning", "EOFError", "Ellipsis", "EncodingWarning", "EnvironmentError",
    "Exception", "ExceptionGroup", "False", "FileExistsError", "FileNotFoundError",
    "FloatingPointError", "FutureWarning", "GeneratorExit", "IOError", "ImportError",
    "ImportWarning", "IndentationError", "IndexError", "InterruptedError", "IsADirectoryError",
    "KeyError", "KeyboardInterrupt", "LookupError", "MemoryError", "ModuleNotFoundError",
    "NameError", "None", "NotADirectoryError", "NotImplemented", "NotImplementedError", "OSError",
    "OverflowError", "PendingDeprecationWarning", "PermissionError", "ProcessLookupError",
    "RecursionError", "ReferenceError", "ResourceWarning", "RuntimeError", "RuntimeWarning",
    "StopAsyncIteration", "StopIteration", "SyntaxError", "SyntaxWarning", "SystemError",
    "SystemExit", "TabError", "TimeoutError", "True", "TypeError", "UnboundLocalError",
    "UnicodeDecodeError", "UnicodeEncodeError", "UnicodeError", "UnicodeTranslateError",
    "UnicodeWarning", "UserWarning", "ValueError", "Warning", "ZeroDivisionError",
    "__annotations__", "__build_class__", "__debug__", "__doc__", "__import__", "__loader__",
    "__name__", "__package__", "__spec__", "abs", "aiter", "all", "anext", "any", "ascii", "bin", "bool",
    "breakpoint", "bytearray", "bytes", "callable", "chr", "classmethod", "compile", "complex",
    "copyright", "credits", "delattr", "dict", "dir", "divmod", "enumerate", "eval", "exec", "exit",
    "filter", "float", "format", "frozenset", "getattr", "globals", "hasattr", "hash", "help",
    "hex", "id", "input", "int", "isinstance", "issubclass", "iter", "len", "license", "list",
    "locals", "map", "max", "memoryview", "min", "next", "object", "oct", "open", "ord", "pow",
    "print", "property", "quit", "range", "repr", "reversed", "round", "set", "setattr", "slice",
    "sorted", "staticmethod", "str", "sum", "super", "tuple", "type", "vars", "zip",
    "__class__", "__delattr__", "__dict__", "__dir__", "__eq__", "__format__", "__ge__",
    "__getattribute__", "__getstate__", "__gt__", "__hash__", "__init__", "__init_subclass__",
    "__le__", "__lt__", "__ne__", "__new__", "__reduce__", "__reduce_ex__", "__repr__",
    "__setattr__", "__sizeof__", "__str__", "__subclasshook__"]

/-- The import statements of registered names. -/
structure ImportTable where
  entries : List (String × String)
deriving Repr, DecidableEq

namespace ImportTable

/-- The names that are registered from the start. -/
def initial : ImportTable where
  entries := [
    ("datetime", "from datetime import datetime"),
    ("date", "from datetime import date"),
    ("time", "from datetime import time"),
    ("timedelta", "from datetime import timedelta"),
    ("Decimal", "from decimal import Decimal"),
    ("UUID", "from uuid import UUID"),
    ("Any", "from typing import Any")]

/-- Registers the import statement of a name. -/
def register (table : ImportTable) (name statement : String) : ImportTable :=
  ⟨setKey name statement table.entries⟩

def find? (table : ImportTable) (name : String) : Option String := findKey? name table.entries

def statements (table : ImportTable) : List String :=
  ((table.entries.map (·.2)).mergeSort fun a b => a ≤ b).eraseDups

/-- The name to write for a target and the import statement it needs. -/
def resolve (table : ImportTable) (target : String) : String × Option String :=
  match Text.splitLast '.' target with
  | some (path, name) => (name, some s!"from {path} import {name}")
  -- A built-in name wins over a registered one.
  | none => (target, if builtinNames.contains target then none else table.find? target)

end ImportTable

end GraphQLModels
