/-
  The input of the generator, `tcl_gen/input.txt`, and the ingress islands that the top level
  gets from it.

  The controls come in the order of their FIFOs, and no location comes twice, so every
  ingress FIFO has its control (`islands_records`). In eight of the pairs, all on the west
  buses in column 206, the control is a stage nearer than the FIFO (`late_islands`).
-/
import FpgaPartialReconfig.SoftNoc.Generator
import Mathlib.Data.List.Chain

namespace FpgaPartialReconfig.SoftNoc

def inputLines : List Line := [
  line .I 104 165 .E (2, 40) (2, 39) 4, line .C 105 165 .E (2, 40) (2, 39) 4,
  line .C 205 165 .W (2, 40) (2, 39) 3, line .I 206 165 .W (2, 40) (2, 39) 4,
  line .E 104 164 .E (2, 40) (2, 39) 5, line .E 206 164 .W (2, 40) (2, 39) 5,
  line .C 103 163 .W (2, 38) (2, 37) 1, line .I 104 163 .W (2, 38) (2, 37) 1,
  line .I 206 163 .E (2, 38) (2, 37) 1, line .C 207 163 .E (2, 38) (2, 37) 1,
  line .E 104 162 .W (2, 38) (2, 37) 2, line .E 206 162 .E (2, 38) (2, 37) 2,
  line .I 153 161 .E (2, 36) (2, 35) 3, line .C 154 161 .E (2, 36) (2, 35) 3,
  line .C 238 161 .W (2, 36) (2, 35) 4, line .I 239 161 .W (2, 36) (2, 35) 4,
  line .E 153 160 .E (2, 36) (2, 35) 4, line .E 239 160 .W (2, 36) (2, 35) 5,
  line .C 152 159 .W (2, 34) (2, 33) 2, line .I 153 159 .W (2, 34) (2, 33) 2,
  line .I 239 159 .E (2, 34) (2, 33) 1, line .C 240 159 .E (2, 34) (2, 33) 1,
  line .E 153 158 .W (2, 34) (2, 33) 3, line .E 239 158 .E (2, 34) (2, 33) 2,
  line .I 83 157 .E (2, 32) (2, 31) 5, line .C 84 157 .E (2, 32) (2, 31) 5,
  line .C 184 157 .W (2, 32) (2, 31) 3, line .I 185 157 .W (2, 32) (2, 31) 3,
  line .E 83 156 .E (2, 32) (2, 31) 6, line .E 185 156 .W (2, 32) (2, 31) 4,
  line .C 82 155 .W (2, 30) (2, 29) 0, line .I 83 155 .W (2, 30) (2, 29) 0,
  line .I 185 155 .E (2, 30) (2, 29) 2, line .C 186 155 .E (2, 30) (2, 29) 2,
  line .E 83 154 .W (2, 30) (2, 29) 1, line .E 185 154 .E (2, 30) (2, 29) 3,
  line .I 132 153 .E (2, 28) (2, 27) 4, line .C 133 153 .E (2, 28) (2, 27) 4,
  line .C 259 153 .W (2, 28) (2, 27) 5, line .I 260 153 .W (2, 28) (2, 27) 5,
  line .E 132 152 .E (2, 28) (2, 27) 5, line .E 260 152 .W (2, 28) (2, 27) 6,
  line .C 131 151 .W (2, 26) (2, 25) 1, line .I 132 151 .W (2, 26) (2, 25) 1,
  line .C 152 151 .N (1, 23) (1, 24) 0, line .I 153 151 .N (1, 24) (1, 25) 0,
  line .E 155 151 .S (1, 26) (1, 27) 6, line .I 237 151 .N (3, 9) (3, 8) 0,
  line .C 238 151 .N (3, 10) (3, 9) 0, line .E 239 151 .S (3, 11) (3, 10) 6,
  line .I 260 151 .E (2, 26) (2, 25) 0, line .C 261 151 .E (2, 26) (2, 25) 0,
  line .E 132 150 .W (2, 26) (2, 25) 2, line .E 153 150 .N (1, 24) (1, 25) 1,
  line .C 154 150 .S (1, 25) (1, 26) 5, line .I 155 150 .S (1, 26) (1, 27) 5,
  line .E 237 150 .N (3, 9) (3, 8) 1, line .I 239 150 .S (3, 11) (3, 10) 5,
  line .C 240 150 .S (3, 12) (3, 11) 5, line .E 260 150 .E (2, 26) (2, 25) 1,
  line .I 104 149 .E (2, 24) (2, 23) 4, line .C 105 149 .E (2, 24) (2, 23) 4,
  line .C 205 149 .W (2, 24) (2, 23) 3, line .I 206 149 .W (2, 24) (2, 23) 4,
  line .E 104 148 .E (2, 24) (2, 23) 5, line .E 206 148 .W (2, 24) (2, 23) 5,
  cornerLine .C 66 147 .N (0, 0) 0, line .I 67 147 .N (0, 0) (0, 1) 0,
  line .E 69 147 .S (0, 2) (0, 3) 6, line .C 77 147 .N (0, 7) (0, 8) 0,
  line .I 78 147 .N (0, 8) (0, 9) 0, line .E 80 147 .S (0, 10) (0, 11) 6,
  line .C 87 147 .N (0, 15) (0, 16) 0, line .I 88 147 .N (0, 16) (0, 17) 0,
  line .E 90 147 .S (0, 18) (0, 19) 6, line .C 103 147 .W (2, 22) (2, 21) 1,
  line .I 104 147 .W (2, 22) (2, 21) 1, line .I 172 147 .N (2, 1) (2, 0) 0,
  line .C 173 147 .N (2, 2) (2, 1) 0, line .E 174 147 .S (2, 3) (2, 2) 6,
  line .I 183 147 .N (2, 9) (2, 8) 0, line .C 184 147 .N (2, 10) (2, 9) 0,
  line .E 185 147 .S (2, 11) (2, 10) 6, line .I 194 147 .N (2, 17) (2, 16) 0,
  line .C 195 147 .N (2, 18) (2, 17) 0, line .E 196 147 .S (2, 19) (2, 18) 6,
  line .I 206 147 .E (2, 22) (2, 21) 1, line .C 207 147 .E (2, 22) (2, 21) 1,
  line .I 215 147 .N (2, 33) (2, 32) 0, line .C 216 147 .N (2, 34) (2, 33) 0,
  line .E 217 147 .S (2, 35) (2, 34) 6, line .E 67 146 .N (0, 0) (0, 1) 1,
  line .C 68 146 .S (0, 1) (0, 2) 5, line .I 69 146 .S (0, 2) (0, 3) 5,
  line .E 78 146 .N (0, 8) (0, 9) 1, line .C 79 146 .S (0, 9) (0, 10) 5,
  line .I 80 146 .S (0, 10) (0, 11) 5, line .E 88 146 .N (0, 16) (0, 17) 1,
  line .C 89 146 .S (0, 17) (0, 18) 5, line .I 90 146 .S (0, 18) (0, 19) 5,
  line .E 104 146 .W (2, 22) (2, 21) 2, line .E 172 146 .N (2, 1) (2, 0) 1,
  line .I 174 146 .S (2, 3) (2, 2) 5, line .C 175 146 .S (2, 4) (2, 3) 5,
  line .E 183 146 .N (2, 9) (2, 8) 1, line .I 185 146 .S (2, 11) (2, 10) 5,
  line .C 186 146 .S (2, 12) (2, 11) 5, line .E 194 146 .N (2, 17) (2, 16) 1,
  line .I 196 146 .S (2, 19) (2, 18) 5, line .C 197 146 .S (2, 20) (2, 19) 5,
  line .E 206 146 .E (2, 22) (2, 21) 2, line .E 215 146 .N (2, 33) (2, 32) 1,
  line .I 217 146 .S (2, 35) (2, 34) 5, line .C 218 146 .S (2, 36) (2, 35) 5,
  line .I 153 145 .E (2, 20) (2, 19) 3, line .C 154 145 .E (2, 20) (2, 19) 3,
  line .C 238 145 .W (2, 20) (2, 19) 4, line .I 239 145 .W (2, 20) (2, 19) 4,
  line .E 153 144 .E (2, 20) (2, 19) 4, line .E 239 144 .W (2, 20) (2, 19) 5,
  line .C 120 143 .N (0, 39) (1, 0) 1, line .I 121 143 .N (1, 0) (1, 1) 1,
  line .E 123 143 .S (1, 2) (1, 3) 5, line .C 131 143 .N (1, 7) (1, 8) 1,
  line .I 132 143 .N (1, 8) (1, 9) 1, line .E 134 143 .S (1, 10) (1, 11) 5,
  line .C 141 143 .N (1, 15) (1, 16) 1, line .I 142 143 .N (1, 16) (1, 17) 1,
  line .E 144 143 .S (1, 18) (1, 19) 5, line .C 152 143 .W (2, 18) (2, 17) 2,
  line .I 153 143 .W (2, 18) (2, 17) 2, line .C 163 143 .N (1, 31) (1, 32) 1,
  line .I 164 143 .N (1, 32) (1, 33) 1, line .E 166 143 .S (1, 34) (1, 35) 5,
  line .I 226 143 .N (3, 1) (3, 0) 1, line .C 227 143 .N (3, 2) (3, 1) 1,
  line .E 228 143 .S (3, 3) (3, 2) 5, line .I 239 143 .E (2, 18) (2, 17) 1,
  line .C 240 143 .E (2, 18) (2, 17) 1, line .I 248 143 .N (3, 17) (3, 16) 1,
  line .C 249 143 .N (3, 18) (3, 17) 1, line .E 250 143 .S (3, 19) (3, 18) 5,
  line .I 258 143 .N (3, 25) (3, 24) 1, line .C 259 143 .N (3, 26) (3, 25) 1,
  line .E 260 143 .S (3, 27) (3, 26) 5, line .I 269 143 .N (3, 33) (3, 32) 1,
  line .C 270 143 .N (3, 34) (3, 33) 1, line .E 271 143 .S (3, 35) (3, 34) 5,
  line .E 121 142 .N (1, 0) (1, 1) 2, line .C 122 142 .S (1, 1) (1, 2) 4,
  line .I 123 142 .S (1, 2) (1, 3) 4, line .E 132 142 .N (1, 8) (1, 9) 2,
  line .C 133 142 .S (1, 9) (1, 10) 4, line .I 134 142 .S (1, 10) (1, 11) 4,
  line .E 142 142 .N (1, 16) (1, 17) 2, line .C 143 142 .S (1, 17) (1, 18) 4,
  line .I 144 142 .S (1, 18) (1, 19) 4, line .E 153 142 .W (2, 18) (2, 17) 3,
  line .E 164 142 .N (1, 32) (1, 33) 2, line .C 165 142 .S (1, 33) (1, 34) 4,
  line .I 166 142 .S (1, 34) (1, 35) 4, line .E 226 142 .N (3, 1) (3, 0) 2,
  line .I 228 142 .S (3, 3) (3, 2) 4, line .C 229 142 .S (3, 4) (3, 3) 4,
  line .E 239 142 .E (2, 18) (2, 17) 2, line .E 248 142 .N (3, 17) (3, 16) 2,
  line .I 250 142 .S (3, 19) (3, 18) 4, line .C 251 142 .S (3, 20) (3, 19) 4,
  line .E 258 142 .N (3, 25) (3, 24) 2, line .I 260 142 .S (3, 27) (3, 26) 4,
  line .C 261 142 .S (3, 28) (3, 27) 4, line .E 269 142 .N (3, 33) (3, 32) 2,
  line .I 271 142 .S (3, 35) (3, 34) 4, line .C 272 142 .S (3, 36) (3, 35) 4,
  line .I 83 141 .E (2, 16) (2, 15) 5, line .C 84 141 .E (2, 16) (2, 15) 5,
  line .C 184 141 .W (2, 16) (2, 15) 3, line .I 185 141 .W (2, 16) (2, 15) 3,
  line .E 83 140 .E (2, 16) (2, 15) 6, line .E 185 140 .W (2, 16) (2, 15) 4,
  line .C 82 139 .W (2, 14) (2, 13) 0, line .I 83 139 .W (2, 14) (2, 13) 0,
  line .C 98 139 .N (0, 23) (0, 24) 1, line .I 99 139 .N (0, 24) (0, 25) 1,
  line .E 101 139 .S (0, 26) (0, 27) 5, line .C 109 139 .N (0, 31) (0, 32) 1,
  line .I 110 139 .N (0, 32) (0, 33) 1, line .E 112 139 .S (0, 34) (0, 35) 5,
  line .I 185 139 .E (2, 14) (2, 13) 2, line .C 186 139 .E (2, 14) (2, 13) 2,
  line .I 204 139 .N (2, 25) (2, 24) 1, line .C 205 139 .N (2, 26) (2, 25) 1,
  line .E 206 139 .S (2, 27) (2, 26) 5, line .E 83 138 .W (2, 14) (2, 13) 1,
  line .E 99 138 .N (0, 24) (0, 25) 2, line .C 100 138 .S (0, 25) (0, 26) 4,
  line .I 101 138 .S (0, 26) (0, 27) 4, line .E 110 138 .N (0, 32) (0, 33) 2,
  line .C 111 138 .S (0, 33) (0, 34) 4, line .I 112 138 .S (0, 34) (0, 35) 4,
  line .E 185 138 .E (2, 14) (2, 13) 3, line .E 204 138 .N (2, 25) (2, 24) 2,
  line .I 206 138 .S (2, 27) (2, 26) 4, line .C 207 138 .S (2, 28) (2, 27) 4,
  line .I 132 137 .E (2, 12) (2, 11) 4, line .C 133 137 .E (2, 12) (2, 11) 4,
  line .C 259 137 .W (2, 12) (2, 11) 5, line .I 260 137 .W (2, 12) (2, 11) 5,
  line .E 132 136 .E (2, 12) (2, 11) 5, line .E 260 136 .W (2, 12) (2, 11) 6,
  line .C 131 135 .W (2, 10) (2, 9) 1, line .I 132 135 .W (2, 10) (2, 9) 1,
  line .I 260 135 .E (2, 10) (2, 9) 0, line .C 261 135 .E (2, 10) (2, 9) 0,
  line .E 132 134 .W (2, 10) (2, 9) 2, line .E 260 134 .E (2, 10) (2, 9) 1,
  line .I 104 133 .E (2, 8) (2, 7) 4, line .C 105 133 .E (2, 8) (2, 7) 4,
  line .C 205 133 .W (2, 8) (2, 7) 3, line .I 206 133 .W (2, 8) (2, 7) 4,
  line .E 104 132 .E (2, 8) (2, 7) 5, line .E 206 132 .W (2, 8) (2, 7) 5,
  line .C 103 131 .W (2, 6) (2, 5) 1, line .I 104 131 .W (2, 6) (2, 5) 1,
  line .I 206 131 .E (2, 6) (2, 5) 1, line .C 207 131 .E (2, 6) (2, 5) 1,
  line .E 104 130 .W (2, 6) (2, 5) 2, line .E 206 130 .E (2, 6) (2, 5) 2,
  line .I 153 129 .E (2, 4) (2, 3) 3, line .C 154 129 .E (2, 4) (2, 3) 3,
  line .C 238 129 .W (2, 4) (2, 3) 4, line .I 239 129 .W (2, 4) (2, 3) 4,
  line .E 153 128 .E (2, 4) (2, 3) 4, line .E 239 128 .W (2, 4) (2, 3) 5,
  line .C 152 127 .W (2, 2) (2, 1) 2, line .I 153 127 .W (2, 2) (2, 1) 2,
  line .I 239 127 .E (2, 2) (2, 1) 1, line .C 240 127 .E (2, 2) (2, 1) 1,
  line .E 153 126 .W (2, 2) (2, 1) 3, line .E 239 126 .E (2, 2) (2, 1) 2,
  line .I 83 124 .E (1, 40) (1, 39) 5, line .C 84 124 .E (1, 40) (1, 39) 5,
  line .C 184 124 .W (1, 40) (1, 39) 3, line .I 185 124 .W (1, 40) (1, 39) 3,
  line .E 83 123 .E (1, 40) (1, 39) 6, line .E 185 123 .W (1, 40) (1, 39) 4,
  line .C 82 122 .W (1, 38) (1, 37) 0, line .I 83 122 .W (1, 38) (1, 37) 0,
  line .I 185 122 .E (1, 38) (1, 37) 2, line .C 186 122 .E (1, 38) (1, 37) 2,
  line .E 83 121 .W (1, 38) (1, 37) 1, line .E 185 121 .E (1, 38) (1, 37) 3,
  line .I 132 120 .E (1, 36) (1, 35) 4, line .C 133 120 .E (1, 36) (1, 35) 4,
  line .C 259 120 .W (1, 36) (1, 35) 5, line .I 260 120 .W (1, 36) (1, 35) 5,
  line .E 132 119 .E (1, 36) (1, 35) 5, line .E 260 119 .W (1, 36) (1, 35) 6,
  line .C 131 118 .W (1, 34) (1, 33) 1, line .I 132 118 .W (1, 34) (1, 33) 1,
  line .C 146 118 .N (1, 19) (1, 20) 2, line .I 147 118 .N (1, 20) (1, 21) 2,
  line .E 149 118 .S (1, 22) (1, 23) 4, line .C 157 118 .N (1, 27) (1, 28) 2,
  line .I 158 118 .N (1, 28) (1, 29) 2, line .E 160 118 .S (1, 30) (1, 31) 4,
  line .I 231 118 .N (3, 5) (3, 4) 2, line .C 232 118 .N (3, 6) (3, 5) 2,
  line .E 233 118 .S (3, 7) (3, 6) 4, line .I 242 118 .N (3, 13) (3, 12) 2,
  line .C 243 118 .N (3, 14) (3, 13) 2, line .E 244 118 .S (3, 15) (3, 14) 4,
  line .I 260 118 .E (1, 34) (1, 33) 0, line .C 261 118 .E (1, 34) (1, 33) 0,
  line .I 274 118 .N (3, 37) (3, 36) 2, line .C 275 118 .N (3, 38) (3, 37) 2,
  line .E 276 118 .S (3, 39) (3, 38) 4, line .E 132 117 .W (1, 34) (1, 33) 2,
  line .E 147 117 .N (1, 20) (1, 21) 3, line .C 148 117 .S (1, 21) (1, 22) 3,
  line .I 149 117 .S (1, 22) (1, 23) 3, line .E 158 117 .N (1, 28) (1, 29) 3,
  line .C 159 117 .S (1, 29) (1, 30) 3, line .I 160 117 .S (1, 30) (1, 31) 3,
  line .E 231 117 .N (3, 5) (3, 4) 3, line .I 233 117 .S (3, 7) (3, 6) 3,
  line .C 234 117 .S (3, 8) (3, 7) 3, line .E 242 117 .N (3, 13) (3, 12) 3,
  line .I 244 117 .S (3, 15) (3, 14) 3, line .C 245 117 .S (3, 16) (3, 15) 3,
  line .E 260 117 .E (1, 34) (1, 33) 1, line .E 274 117 .N (3, 37) (3, 36) 3,
  line .I 276 117 .S (3, 39) (3, 38) 3, cornerLine .C 277 117 .S (3, 39) 3,
  line .I 104 116 .E (1, 32) (1, 31) 4, line .C 105 116 .E (1, 32) (1, 31) 4,
  line .C 205 116 .W (1, 32) (1, 31) 3, line .I 206 116 .W (1, 32) (1, 31) 4,
  line .E 104 115 .E (1, 32) (1, 31) 5, line .E 206 115 .W (1, 32) (1, 31) 5,
  line .C 71 114 .N (0, 3) (0, 4) 2, line .I 72 114 .N (0, 4) (0, 5) 2,
  line .E 74 114 .S (0, 6) (0, 7) 4, line .C 82 114 .N (0, 11) (0, 12) 2,
  line .I 83 114 .N (0, 12) (0, 13) 2, line .E 85 114 .S (0, 14) (0, 15) 4,
  line .C 92 114 .N (0, 19) (0, 20) 2, line .I 93 114 .N (0, 20) (0, 21) 2,
  line .E 95 114 .S (0, 22) (0, 23) 4, line .C 103 114 .W (1, 30) (1, 29) 1,
  line .I 104 114 .W (1, 30) (1, 29) 1, line .C 114 114 .N (0, 35) (0, 36) 2,
  line .I 115 114 .N (0, 36) (0, 37) 2, line .E 117 114 .S (0, 38) (0, 39) 4,
  line .I 177 114 .N (2, 5) (2, 4) 2, line .C 178 114 .N (2, 6) (2, 5) 2,
  line .E 179 114 .S (2, 7) (2, 6) 4, line .I 188 114 .N (2, 13) (2, 12) 2,
  line .C 189 114 .N (2, 14) (2, 13) 2, line .E 190 114 .S (2, 15) (2, 14) 4,
  line .I 206 114 .E (1, 30) (1, 29) 1, line .C 207 114 .E (1, 30) (1, 29) 1,
  line .I 220 114 .N (2, 37) (2, 36) 2, line .C 221 114 .N (2, 38) (2, 37) 2,
  line .E 222 114 .S (2, 39) (2, 38) 4, line .E 72 113 .N (0, 4) (0, 5) 3,
  line .C 73 113 .S (0, 5) (0, 6) 3, line .I 74 113 .S (0, 6) (0, 7) 3,
  line .E 83 113 .N (0, 12) (0, 13) 3, line .C 84 113 .S (0, 13) (0, 14) 3,
  line .I 85 113 .S (0, 14) (0, 15) 3, line .E 93 113 .N (0, 20) (0, 21) 3,
  line .C 94 113 .S (0, 21) (0, 22) 3, line .I 95 113 .S (0, 22) (0, 23) 3,
  line .E 104 113 .W (1, 30) (1, 29) 2, line .E 115 113 .N (0, 36) (0, 37) 3,
  line .C 116 113 .S (0, 37) (0, 38) 3, line .I 117 113 .S (0, 38) (0, 39) 3,
  line .E 177 113 .N (2, 5) (2, 4) 3, line .I 179 113 .S (2, 7) (2, 6) 3,
  line .C 180 113 .S (2, 8) (2, 7) 3, line .E 188 113 .N (2, 13) (2, 12) 3,
  line .I 190 113 .S (2, 15) (2, 14) 3, line .C 191 113 .S (2, 16) (2, 15) 3,
  line .E 206 113 .E (1, 30) (1, 29) 2, line .E 220 113 .N (2, 37) (2, 36) 3,
  line .I 222 113 .S (2, 39) (2, 38) 3, line .C 223 113 .S (3, 0) (2, 39) 3,
  line .I 153 112 .E (1, 28) (1, 27) 3, line .C 154 112 .E (1, 28) (1, 27) 3,
  line .C 238 112 .W (1, 28) (1, 27) 4, line .I 239 112 .W (1, 28) (1, 27) 4,
  line .E 153 111 .E (1, 28) (1, 27) 4, line .E 239 111 .W (1, 28) (1, 27) 5,
  line .C 125 110 .N (1, 3) (1, 4) 2, line .I 126 110 .N (1, 4) (1, 5) 2,
  line .E 128 110 .S (1, 6) (1, 7) 4, line .C 136 110 .N (1, 11) (1, 12) 2,
  line .I 137 110 .N (1, 12) (1, 13) 2, line .E 139 110 .S (1, 14) (1, 15) 4,
  line .C 152 110 .W (1, 26) (1, 25) 2, line .I 153 110 .W (1, 26) (1, 25) 2,
  line .C 168 110 .N (1, 35) (1, 36) 2, line .I 169 110 .N (1, 36) (1, 37) 2,
  line .E 171 110 .S (1, 38) (1, 39) 4, line .I 239 110 .E (1, 26) (1, 25) 1,
  line .C 240 110 .E (1, 26) (1, 25) 1, line .I 253 110 .N (3, 21) (3, 20) 2,
  line .C 254 110 .N (3, 22) (3, 21) 2, line .E 255 110 .S (3, 23) (3, 22) 4,
  line .I 263 110 .N (3, 29) (3, 28) 2, line .C 264 110 .N (3, 30) (3, 29) 2,
  line .E 265 110 .S (3, 31) (3, 30) 4, line .E 126 109 .N (1, 4) (1, 5) 3,
  line .C 127 109 .S (1, 5) (1, 6) 3, line .I 128 109 .S (1, 6) (1, 7) 3,
  line .E 137 109 .N (1, 12) (1, 13) 3, line .C 138 109 .S (1, 13) (1, 14) 3,
  line .I 139 109 .S (1, 14) (1, 15) 3, line .E 153 109 .W (1, 26) (1, 25) 3,
  line .E 169 109 .N (1, 36) (1, 37) 3, line .C 170 109 .S (1, 37) (1, 38) 3,
  line .I 171 109 .S (1, 38) (1, 39) 3, line .E 239 109 .E (1, 26) (1, 25) 2,
  line .E 253 109 .N (3, 21) (3, 20) 3, line .I 255 109 .S (3, 23) (3, 22) 3,
  line .C 256 109 .S (3, 24) (3, 23) 3, line .E 263 109 .N (3, 29) (3, 28) 3,
  line .I 265 109 .S (3, 31) (3, 30) 3, line .C 266 109 .S (3, 32) (3, 31) 3,
  line .I 83 108 .E (1, 24) (1, 23) 5, line .C 84 108 .E (1, 24) (1, 23) 5,
  line .C 184 108 .W (1, 24) (1, 23) 3, line .I 185 108 .W (1, 24) (1, 23) 3,
  line .E 83 107 .E (1, 24) (1, 23) 6, line .E 185 107 .W (1, 24) (1, 23) 4,
  line .C 82 106 .W (1, 22) (1, 21) 0, line .I 83 106 .W (1, 22) (1, 21) 0,
  line .C 103 106 .N (0, 27) (0, 28) 2, line .I 104 106 .N (0, 28) (0, 29) 2,
  line .E 106 106 .S (0, 30) (0, 31) 4, line .I 185 106 .E (1, 22) (1, 21) 2,
  line .C 186 106 .E (1, 22) (1, 21) 2, line .I 199 106 .N (2, 21) (2, 20) 2,
  line .C 200 106 .N (2, 22) (2, 21) 2, line .E 201 106 .S (2, 23) (2, 22) 4,
  line .I 209 106 .N (2, 29) (2, 28) 2, line .C 210 106 .N (2, 30) (2, 29) 2,
  line .E 211 106 .S (2, 31) (2, 30) 4, line .E 83 105 .W (1, 22) (1, 21) 1,
  line .E 104 105 .N (0, 28) (0, 29) 3, line .C 105 105 .S (0, 29) (0, 30) 3,
  line .I 106 105 .S (0, 30) (0, 31) 3, line .E 185 105 .E (1, 22) (1, 21) 3,
  line .E 199 105 .N (2, 21) (2, 20) 3, line .I 201 105 .S (2, 23) (2, 22) 3,
  line .C 202 105 .S (2, 24) (2, 23) 3, line .E 209 105 .N (2, 29) (2, 28) 3,
  line .I 211 105 .S (2, 31) (2, 30) 3, line .C 212 105 .S (2, 32) (2, 31) 3,
  line .I 132 104 .E (1, 20) (1, 19) 4, line .C 133 104 .E (1, 20) (1, 19) 4,
  line .C 259 104 .W (1, 20) (1, 19) 5, line .I 260 104 .W (1, 20) (1, 19) 5,
  line .E 132 103 .E (1, 20) (1, 19) 5, line .E 260 103 .W (1, 20) (1, 19) 6,
  line .C 131 102 .W (1, 18) (1, 17) 1, line .I 132 102 .W (1, 18) (1, 17) 1,
  line .E 153 102 .S (1, 24) (1, 25) 3, line .C 154 102 .N (1, 25) (1, 26) 3,
  line .I 155 102 .N (1, 26) (1, 27) 3, line .E 237 102 .S (3, 9) (3, 8) 3,
  line .I 239 102 .N (3, 11) (3, 10) 3, line .C 240 102 .N (3, 12) (3, 11) 3,
  line .I 260 102 .E (1, 18) (1, 17) 0, line .C 261 102 .E (1, 18) (1, 17) 0,
  line .E 132 101 .W (1, 18) (1, 17) 2, line .C 152 101 .S (1, 23) (1, 24) 2,
  line .I 153 101 .S (1, 24) (1, 25) 2, line .E 155 101 .N (1, 26) (1, 27) 4,
  line .I 237 101 .S (3, 9) (3, 8) 2, line .C 238 101 .S (3, 10) (3, 9) 2,
  line .E 239 101 .N (3, 11) (3, 10) 4, line .E 260 101 .E (1, 18) (1, 17) 1,
  line .I 104 100 .E (1, 16) (1, 15) 4, line .C 105 100 .E (1, 16) (1, 15) 4,
  line .C 205 100 .W (1, 16) (1, 15) 3, line .I 206 100 .W (1, 16) (1, 15) 4,
  line .E 104 99 .E (1, 16) (1, 15) 5, line .E 206 99 .W (1, 16) (1, 15) 5,
  line .E 67 98 .S (0, 0) (0, 1) 3, line .C 68 98 .N (0, 1) (0, 2) 3,
  line .I 69 98 .N (0, 2) (0, 3) 3, line .E 78 98 .S (0, 8) (0, 9) 3,
  line .C 79 98 .N (0, 9) (0, 10) 3, line .I 80 98 .N (0, 10) (0, 11) 3,
  line .E 88 98 .S (0, 16) (0, 17) 3, line .C 89 98 .N (0, 17) (0, 18) 3,
  line .I 90 98 .N (0, 18) (0, 19) 3, line .C 103 98 .W (1, 14) (1, 13) 1,
  line .I 104 98 .W (1, 14) (1, 13) 1, line .E 172 98 .S (2, 1) (2, 0) 3,
  line .I 174 98 .N (2, 3) (2, 2) 3, line .C 175 98 .N (2, 4) (2, 3) 3,
  line .E 183 98 .S (2, 9) (2, 8) 3, line .I 185 98 .N (2, 11) (2, 10) 3,
  line .C 186 98 .N (2, 12) (2, 11) 3, line .E 194 98 .S (2, 17) (2, 16) 3,
  line .I 196 98 .N (2, 19) (2, 18) 3, line .C 197 98 .N (2, 20) (2, 19) 3,
  line .I 206 98 .E (1, 14) (1, 13) 1, line .C 207 98 .E (1, 14) (1, 13) 1,
  line .E 215 98 .S (2, 33) (2, 32) 3, line .I 217 98 .N (2, 35) (2, 34) 3,
  line .C 218 98 .N (2, 36) (2, 35) 3, cornerLine .C 66 97 .S (0, 0) 2,
  line .I 67 97 .S (0, 0) (0, 1) 2, line .E 69 97 .N (0, 2) (0, 3) 4,
  line .C 77 97 .S (0, 7) (0, 8) 2, line .I 78 97 .S (0, 8) (0, 9) 2,
  line .E 80 97 .N (0, 10) (0, 11) 4, line .C 87 97 .S (0, 15) (0, 16) 2,
  line .I 88 97 .S (0, 16) (0, 17) 2, line .E 90 97 .N (0, 18) (0, 19) 4,
  line .E 104 97 .W (1, 14) (1, 13) 2, line .I 172 97 .S (2, 1) (2, 0) 2,
  line .C 173 97 .S (2, 2) (2, 1) 2, line .E 174 97 .N (2, 3) (2, 2) 4,
  line .I 183 97 .S (2, 9) (2, 8) 2, line .C 184 97 .S (2, 10) (2, 9) 2,
  line .E 185 97 .N (2, 11) (2, 10) 4, line .I 194 97 .S (2, 17) (2, 16) 2,
  line .C 195 97 .S (2, 18) (2, 17) 2, line .E 196 97 .N (2, 19) (2, 18) 4,
  line .E 206 97 .E (1, 14) (1, 13) 2, line .I 215 97 .S (2, 33) (2, 32) 2,
  line .C 216 97 .S (2, 34) (2, 33) 2, line .E 217 97 .N (2, 35) (2, 34) 4,
  line .I 153 96 .E (1, 12) (1, 11) 3, line .C 154 96 .E (1, 12) (1, 11) 3,
  line .C 238 96 .W (1, 12) (1, 11) 4, line .I 239 96 .W (1, 12) (1, 11) 4,
  line .E 153 95 .E (1, 12) (1, 11) 4, line .E 239 95 .W (1, 12) (1, 11) 5,
  line .E 121 94 .S (1, 0) (1, 1) 3, line .C 122 94 .N (1, 1) (1, 2) 3,
  line .I 123 94 .N (1, 2) (1, 3) 3, line .E 132 94 .S (1, 8) (1, 9) 3,
  line .C 133 94 .N (1, 9) (1, 10) 3, line .I 134 94 .N (1, 10) (1, 11) 3,
  line .E 142 94 .S (1, 16) (1, 17) 3, line .C 143 94 .N (1, 17) (1, 18) 3,
  line .I 144 94 .N (1, 18) (1, 19) 3, line .C 152 94 .W (1, 10) (1, 9) 2,
  line .I 153 94 .W (1, 10) (1, 9) 2, line .E 164 94 .S (1, 32) (1, 33) 3,
  line .C 165 94 .N (1, 33) (1, 34) 3, line .I 166 94 .N (1, 34) (1, 35) 3,
  line .E 226 94 .S (3, 1) (3, 0) 3, line .I 228 94 .N (3, 3) (3, 2) 3,
  line .C 229 94 .N (3, 4) (3, 3) 3, line .I 239 94 .E (1, 10) (1, 9) 1,
  line .C 240 94 .E (1, 10) (1, 9) 1, line .E 248 94 .S (3, 17) (3, 16) 3,
  line .I 250 94 .N (3, 19) (3, 18) 3, line .C 251 94 .N (3, 20) (3, 19) 3,
  line .E 258 94 .S (3, 25) (3, 24) 3, line .I 260 94 .N (3, 27) (3, 26) 3,
  line .C 261 94 .N (3, 28) (3, 27) 3, line .E 269 94 .S (3, 33) (3, 32) 3,
  line .I 271 94 .N (3, 35) (3, 34) 3, line .C 272 94 .N (3, 36) (3, 35) 3,
  line .C 120 93 .S (0, 39) (1, 0) 2, line .I 121 93 .S (1, 0) (1, 1) 2,
  line .E 123 93 .N (1, 2) (1, 3) 4, line .C 131 93 .S (1, 7) (1, 8) 2,
  line .I 132 93 .S (1, 8) (1, 9) 2, line .E 134 93 .N (1, 10) (1, 11) 4,
  line .C 141 93 .S (1, 15) (1, 16) 2, line .I 142 93 .S (1, 16) (1, 17) 2,
  line .E 144 93 .N (1, 18) (1, 19) 4, line .E 153 93 .W (1, 10) (1, 9) 3,
  line .C 163 93 .S (1, 31) (1, 32) 2, line .I 164 93 .S (1, 32) (1, 33) 2,
  line .E 166 93 .N (1, 34) (1, 35) 4, line .I 226 93 .S (3, 1) (3, 0) 2,
  line .C 227 93 .S (3, 2) (3, 1) 2, line .E 228 93 .N (3, 3) (3, 2) 4,
  line .E 239 93 .E (1, 10) (1, 9) 2, line .I 248 93 .S (3, 17) (3, 16) 2,
  line .C 249 93 .S (3, 18) (3, 17) 2, line .E 250 93 .N (3, 19) (3, 18) 4,
  line .I 258 93 .S (3, 25) (3, 24) 2, line .C 259 93 .S (3, 26) (3, 25) 2,
  line .E 260 93 .N (3, 27) (3, 26) 4, line .I 269 93 .S (3, 33) (3, 32) 2,
  line .C 270 93 .S (3, 34) (3, 33) 2, line .E 271 93 .N (3, 35) (3, 34) 4,
  line .I 83 92 .E (1, 8) (1, 7) 5, line .C 84 92 .E (1, 8) (1, 7) 5,
  line .C 184 92 .W (1, 8) (1, 7) 3, line .I 185 92 .W (1, 8) (1, 7) 3,
  line .E 83 91 .E (1, 8) (1, 7) 6, line .E 185 91 .W (1, 8) (1, 7) 4,
  line .C 82 90 .W (1, 6) (1, 5) 0, line .I 83 90 .W (1, 6) (1, 5) 0,
  line .E 99 90 .S (0, 24) (0, 25) 3, line .C 100 90 .N (0, 25) (0, 26) 3,
  line .I 101 90 .N (0, 26) (0, 27) 3, line .E 110 90 .S (0, 32) (0, 33) 3,
  line .C 111 90 .N (0, 33) (0, 34) 3, line .I 112 90 .N (0, 34) (0, 35) 3,
  line .I 185 90 .E (1, 6) (1, 5) 2, line .C 186 90 .E (1, 6) (1, 5) 2,
  line .E 204 90 .S (2, 25) (2, 24) 3, line .I 206 90 .N (2, 27) (2, 26) 3,
  line .C 207 90 .N (2, 28) (2, 27) 3, line .E 83 89 .W (1, 6) (1, 5) 1,
  line .C 98 89 .S (0, 23) (0, 24) 2, line .I 99 89 .S (0, 24) (0, 25) 2,
  line .E 101 89 .N (0, 26) (0, 27) 4, line .C 109 89 .S (0, 31) (0, 32) 2,
  line .I 110 89 .S (0, 32) (0, 33) 2, line .E 112 89 .N (0, 34) (0, 35) 4,
  line .E 185 89 .E (1, 6) (1, 5) 3, line .I 204 89 .S (2, 25) (2, 24) 2,
  line .C 205 89 .S (2, 26) (2, 25) 2, line .E 206 89 .N (2, 27) (2, 26) 4,
  line .I 132 88 .E (1, 4) (1, 3) 4, line .C 133 88 .E (1, 4) (1, 3) 4,
  line .C 259 88 .W (1, 4) (1, 3) 5, line .I 260 88 .W (1, 4) (1, 3) 5,
  line .E 132 87 .E (1, 4) (1, 3) 5, line .E 260 87 .W (1, 4) (1, 3) 6,
  line .C 131 86 .W (1, 2) (1, 1) 1, line .I 132 86 .W (1, 2) (1, 1) 1,
  line .I 260 86 .E (1, 2) (1, 1) 0, line .C 261 86 .E (1, 2) (1, 1) 0,
  line .E 132 85 .W (1, 2) (1, 1) 2, line .E 260 85 .E (1, 2) (1, 1) 1,
  line .I 104 83 .E (0, 40) (0, 39) 4, line .C 105 83 .E (0, 40) (0, 39) 4,
  line .C 205 83 .W (0, 40) (0, 39) 3, line .I 206 83 .W (0, 40) (0, 39) 4,
  line .E 104 82 .E (0, 40) (0, 39) 5, line .E 206 82 .W (0, 40) (0, 39) 5,
  line .C 103 81 .W (0, 38) (0, 37) 1, line .I 104 81 .W (0, 38) (0, 37) 1,
  line .I 206 81 .E (0, 38) (0, 37) 1, line .C 207 81 .E (0, 38) (0, 37) 1,
  line .E 104 80 .W (0, 38) (0, 37) 2, line .E 206 80 .E (0, 38) (0, 37) 2,
  line .I 153 79 .E (0, 36) (0, 35) 3, line .C 154 79 .E (0, 36) (0, 35) 3,
  line .C 238 79 .W (0, 36) (0, 35) 4, line .I 239 79 .W (0, 36) (0, 35) 4,
  line .E 153 78 .E (0, 36) (0, 35) 4, line .E 239 78 .W (0, 36) (0, 35) 5,
  line .C 152 77 .W (0, 34) (0, 33) 2, line .I 153 77 .W (0, 34) (0, 33) 2,
  line .I 239 77 .E (0, 34) (0, 33) 1, line .C 240 77 .E (0, 34) (0, 33) 1,
  line .E 153 76 .W (0, 34) (0, 33) 3, line .E 239 76 .E (0, 34) (0, 33) 2,
  line .I 83 75 .E (0, 32) (0, 31) 5, line .C 84 75 .E (0, 32) (0, 31) 5,
  line .C 184 75 .W (0, 32) (0, 31) 3, line .I 185 75 .W (0, 32) (0, 31) 3,
  line .E 83 74 .E (0, 32) (0, 31) 6, line .E 185 74 .W (0, 32) (0, 31) 4,
  line .C 82 73 .W (0, 30) (0, 29) 0, line .I 83 73 .W (0, 30) (0, 29) 0,
  line .I 185 73 .E (0, 30) (0, 29) 2, line .C 186 73 .E (0, 30) (0, 29) 2,
  line .E 83 72 .W (0, 30) (0, 29) 1, line .E 185 72 .E (0, 30) (0, 29) 3,
  line .I 132 71 .E (0, 28) (0, 27) 4, line .C 133 71 .E (0, 28) (0, 27) 4,
  line .C 259 71 .W (0, 28) (0, 27) 5, line .I 260 71 .W (0, 28) (0, 27) 5,
  line .E 132 70 .E (0, 28) (0, 27) 5, line .E 260 70 .W (0, 28) (0, 27) 6,
  line .C 131 69 .W (0, 26) (0, 25) 1, line .I 132 69 .W (0, 26) (0, 25) 1,
  line .E 147 69 .S (1, 20) (1, 21) 2, line .C 148 69 .N (1, 21) (1, 22) 4,
  line .I 149 69 .N (1, 22) (1, 23) 4, line .E 158 69 .S (1, 28) (1, 29) 2,
  line .C 159 69 .N (1, 29) (1, 30) 4, line .I 160 69 .N (1, 30) (1, 31) 4,
  line .E 231 69 .S (3, 5) (3, 4) 2, line .I 233 69 .N (3, 7) (3, 6) 4,
  line .C 234 69 .N (3, 8) (3, 7) 4, line .E 242 69 .S (3, 13) (3, 12) 2,
  line .I 244 69 .N (3, 15) (3, 14) 4, line .C 245 69 .N (3, 16) (3, 15) 4,
  line .I 260 69 .E (0, 26) (0, 25) 0, line .C 261 69 .E (0, 26) (0, 25) 0,
  line .E 274 69 .S (3, 37) (3, 36) 2, line .I 276 69 .N (3, 39) (3, 38) 4,
  cornerLine .C 277 69 .N (3, 39) 4, line .E 132 68 .W (0, 26) (0, 25) 2,
  line .C 146 68 .S (1, 19) (1, 20) 1, line .I 147 68 .S (1, 20) (1, 21) 1,
  line .E 149 68 .N (1, 22) (1, 23) 5, line .C 157 68 .S (1, 27) (1, 28) 1,
  line .I 158 68 .S (1, 28) (1, 29) 1, line .E 160 68 .N (1, 30) (1, 31) 5,
  line .I 231 68 .S (3, 5) (3, 4) 1, line .C 232 68 .S (3, 6) (3, 5) 1,
  line .E 233 68 .N (3, 7) (3, 6) 5, line .I 242 68 .S (3, 13) (3, 12) 1,
  line .C 243 68 .S (3, 14) (3, 13) 1, line .E 244 68 .N (3, 15) (3, 14) 5,
  line .E 260 68 .E (0, 26) (0, 25) 1, line .I 274 68 .S (3, 37) (3, 36) 1,
  line .C 275 68 .S (3, 38) (3, 37) 1, line .E 276 68 .N (3, 39) (3, 38) 5,
  line .I 104 67 .E (0, 24) (0, 23) 4, line .C 105 67 .E (0, 24) (0, 23) 4,
  line .C 205 67 .W (0, 24) (0, 23) 3, line .I 206 67 .W (0, 24) (0, 23) 4,
  line .E 104 66 .E (0, 24) (0, 23) 5, line .E 206 66 .W (0, 24) (0, 23) 5,
  line .E 72 65 .S (0, 4) (0, 5) 2, line .C 73 65 .N (0, 5) (0, 6) 4,
  line .I 74 65 .N (0, 6) (0, 7) 4, line .E 83 65 .S (0, 12) (0, 13) 2,
  line .C 84 65 .N (0, 13) (0, 14) 4, line .I 85 65 .N (0, 14) (0, 15) 4,
  line .E 93 65 .S (0, 20) (0, 21) 2, line .C 94 65 .N (0, 21) (0, 22) 4,
  line .I 95 65 .N (0, 22) (0, 23) 4, line .C 103 65 .W (0, 22) (0, 21) 1,
  line .I 104 65 .W (0, 22) (0, 21) 1, line .E 115 65 .S (0, 36) (0, 37) 2,
  line .C 116 65 .N (0, 37) (0, 38) 4, line .I 117 65 .N (0, 38) (0, 39) 4,
  line .E 177 65 .S (2, 5) (2, 4) 2, line .I 179 65 .N (2, 7) (2, 6) 4,
  line .C 180 65 .N (2, 8) (2, 7) 4, line .E 188 65 .S (2, 13) (2, 12) 2,
  line .I 190 65 .N (2, 15) (2, 14) 4, line .C 191 65 .N (2, 16) (2, 15) 4,
  line .I 206 65 .E (0, 22) (0, 21) 1, line .C 207 65 .E (0, 22) (0, 21) 1,
  line .E 220 65 .S (2, 37) (2, 36) 2, line .I 222 65 .N (2, 39) (2, 38) 4,
  line .C 223 65 .N (3, 0) (2, 39) 4, line .C 71 64 .S (0, 3) (0, 4) 1,
  line .I 72 64 .S (0, 4) (0, 5) 1, line .E 74 64 .N (0, 6) (0, 7) 5,
  line .C 82 64 .S (0, 11) (0, 12) 1, line .I 83 64 .S (0, 12) (0, 13) 1,
  line .E 85 64 .N (0, 14) (0, 15) 5, line .C 92 64 .S (0, 19) (0, 20) 1,
  line .I 93 64 .S (0, 20) (0, 21) 1, line .E 95 64 .N (0, 22) (0, 23) 5,
  line .E 104 64 .W (0, 22) (0, 21) 2, line .C 114 64 .S (0, 35) (0, 36) 1,
  line .I 115 64 .S (0, 36) (0, 37) 1, line .E 117 64 .N (0, 38) (0, 39) 5,
  line .I 177 64 .S (2, 5) (2, 4) 1, line .C 178 64 .S (2, 6) (2, 5) 1,
  line .E 179 64 .N (2, 7) (2, 6) 5, line .I 188 64 .S (2, 13) (2, 12) 1,
  line .C 189 64 .S (2, 14) (2, 13) 1, line .E 190 64 .N (2, 15) (2, 14) 5,
  line .E 206 64 .E (0, 22) (0, 21) 2, line .I 220 64 .S (2, 37) (2, 36) 1,
  line .C 221 64 .S (2, 38) (2, 37) 1, line .E 222 64 .N (2, 39) (2, 38) 5,
  line .I 153 63 .E (0, 20) (0, 19) 3, line .C 154 63 .E (0, 20) (0, 19) 3,
  line .C 238 63 .W (0, 20) (0, 19) 4, line .I 239 63 .W (0, 20) (0, 19) 4,
  line .E 153 62 .E (0, 20) (0, 19) 4, line .E 239 62 .W (0, 20) (0, 19) 5,
  line .E 126 61 .S (1, 4) (1, 5) 1, line .C 127 61 .N (1, 5) (1, 6) 5,
  line .I 128 61 .N (1, 6) (1, 7) 5, line .E 137 61 .S (1, 12) (1, 13) 1,
  line .C 138 61 .N (1, 13) (1, 14) 5, line .I 139 61 .N (1, 14) (1, 15) 5,
  line .C 152 61 .W (0, 18) (0, 17) 2, line .I 153 61 .W (0, 18) (0, 17) 2,
  line .E 169 61 .S (1, 36) (1, 37) 1, line .C 170 61 .N (1, 37) (1, 38) 5,
  line .I 171 61 .N (1, 38) (1, 39) 5, line .I 239 61 .E (0, 18) (0, 17) 1,
  line .C 240 61 .E (0, 18) (0, 17) 1, line .E 253 61 .S (3, 21) (3, 20) 1,
  line .I 255 61 .N (3, 23) (3, 22) 5, line .C 256 61 .N (3, 24) (3, 23) 5,
  line .E 263 61 .S (3, 29) (3, 28) 1, line .I 265 61 .N (3, 31) (3, 30) 5,
  line .C 266 61 .N (3, 32) (3, 31) 5, line .C 125 60 .S (1, 3) (1, 4) 0,
  line .I 126 60 .S (1, 4) (1, 5) 0, line .E 128 60 .N (1, 6) (1, 7) 6,
  line .C 136 60 .S (1, 11) (1, 12) 0, line .I 137 60 .S (1, 12) (1, 13) 0,
  line .E 139 60 .N (1, 14) (1, 15) 6, line .E 153 60 .W (0, 18) (0, 17) 3,
  line .C 168 60 .S (1, 35) (1, 36) 0, line .I 169 60 .S (1, 36) (1, 37) 0,
  line .E 171 60 .N (1, 38) (1, 39) 6, line .E 239 60 .E (0, 18) (0, 17) 2,
  line .I 253 60 .S (3, 21) (3, 20) 0, line .C 254 60 .S (3, 22) (3, 21) 0,
  line .E 255 60 .N (3, 23) (3, 22) 6, line .I 263 60 .S (3, 29) (3, 28) 0,
  line .C 264 60 .S (3, 30) (3, 29) 0, line .E 265 60 .N (3, 31) (3, 30) 6,
  line .I 83 59 .E (0, 16) (0, 15) 5, line .C 84 59 .E (0, 16) (0, 15) 5,
  line .C 184 59 .W (0, 16) (0, 15) 3, line .I 185 59 .W (0, 16) (0, 15) 3,
  line .E 83 58 .E (0, 16) (0, 15) 6, line .E 185 58 .W (0, 16) (0, 15) 4,
  line .C 82 57 .W (0, 14) (0, 13) 0, line .I 83 57 .W (0, 14) (0, 13) 0,
  line .E 104 57 .S (0, 28) (0, 29) 1, line .C 105 57 .N (0, 29) (0, 30) 5,
  line .I 106 57 .N (0, 30) (0, 31) 5, line .I 185 57 .E (0, 14) (0, 13) 2,
  line .C 186 57 .E (0, 14) (0, 13) 2, line .E 199 57 .S (2, 21) (2, 20) 1,
  line .I 201 57 .N (2, 23) (2, 22) 5, line .C 202 57 .N (2, 24) (2, 23) 5,
  line .E 209 57 .S (2, 29) (2, 28) 1, line .I 211 57 .N (2, 31) (2, 30) 5,
  line .C 212 57 .N (2, 32) (2, 31) 5, line .E 83 56 .W (0, 14) (0, 13) 1,
  line .C 103 56 .S (0, 27) (0, 28) 0, line .I 104 56 .S (0, 28) (0, 29) 0,
  line .E 106 56 .N (0, 30) (0, 31) 6, line .E 185 56 .E (0, 14) (0, 13) 3,
  line .I 199 56 .S (2, 21) (2, 20) 0, line .C 200 56 .S (2, 22) (2, 21) 0,
  line .E 201 56 .N (2, 23) (2, 22) 6, line .I 209 56 .S (2, 29) (2, 28) 0,
  line .C 210 56 .S (2, 30) (2, 29) 0, line .E 211 56 .N (2, 31) (2, 30) 6,
  line .I 132 55 .E (0, 12) (0, 11) 4, line .C 133 55 .E (0, 12) (0, 11) 4,
  line .C 259 55 .W (0, 12) (0, 11) 5, line .I 260 55 .W (0, 12) (0, 11) 5,
  line .E 132 54 .E (0, 12) (0, 11) 5, line .E 260 54 .W (0, 12) (0, 11) 6,
  line .C 131 53 .W (0, 10) (0, 9) 1, line .I 132 53 .W (0, 10) (0, 9) 1,
  line .I 260 53 .E (0, 10) (0, 9) 0, line .C 261 53 .E (0, 10) (0, 9) 0,
  line .E 132 52 .W (0, 10) (0, 9) 2, line .E 260 52 .E (0, 10) (0, 9) 1,
  line .I 104 51 .E (0, 8) (0, 7) 4, line .C 105 51 .E (0, 8) (0, 7) 4,
  line .C 205 51 .W (0, 8) (0, 7) 3, line .I 206 51 .W (0, 8) (0, 7) 4,
  line .E 104 50 .E (0, 8) (0, 7) 5, line .E 206 50 .W (0, 8) (0, 7) 5,
  line .C 103 49 .W (0, 6) (0, 5) 1, line .I 104 49 .W (0, 6) (0, 5) 1,
  line .I 206 49 .E (0, 6) (0, 5) 1, line .C 207 49 .E (0, 6) (0, 5) 1,
  line .E 104 48 .W (0, 6) (0, 5) 2, line .E 206 48 .E (0, 6) (0, 5) 2,
  line .I 153 47 .E (0, 4) (0, 3) 3, line .C 154 47 .E (0, 4) (0, 3) 3,
  line .C 238 47 .W (0, 4) (0, 3) 4, line .I 239 47 .W (0, 4) (0, 3) 4,
  line .E 153 46 .E (0, 4) (0, 3) 4, line .E 239 46 .W (0, 4) (0, 3) 5,
  line .C 152 45 .W (0, 2) (0, 1) 2, line .I 153 45 .W (0, 2) (0, 1) 2,
  line .I 239 45 .E (0, 2) (0, 1) 1, line .C 240 45 .E (0, 2) (0, 1) 1,
  line .E 153 44 .W (0, 2) (0, 1) 3, line .E 239 44 .E (0, 2) (0, 1) 2]

/-- The indices before the first line do not matter, it has both its places. -/
def records : List Record := scan (0, 0) inputLines

/-- The order of the locations in the input. -/
def Before (a b : Nat × Nat) : Prop := b.2 < a.2 ∨ a.2 = b.2 ∧ a.1 < b.1

instance : DecidableRel Before := fun a b =>
  inferInstanceAs (Decidable (b.2 < a.2 ∨ a.2 = b.2 ∧ a.1 < b.1))

theorem Before.trans {a b c : Nat × Nat} (hab : Before a b) (hbc : Before b c) : Before a c := by
  unfold Before at *
  omega

instance : Trans Before Before Before := ⟨Before.trans⟩

theorem Before.ne {a b : Nat × Nat} (h : Before a b) : a ≠ b := by
  intro heq
  unfold Before at h
  rw [heq] at h
  omega

theorem nodup_locations : ((ingress records).map Record.location).Nodup := by
  have hchain : ((ingress records).map Record.location).IsChain Before := by decide +kernel
  exact hchain.pairwise.imp Before.ne

theorem islands_records : islands records = (controls records).zip (ingress records) := by
  have hkeys : (controls records).map Record.positionalAlias =
      (ingress records).map Record.location := by decide +kernel
  exact islands_eq_zip hkeys nodup_locations

/-! ## Stages -/

/-- The control and the FIFO of an island on the west buses in column 206. -/
def lateIsland (y : Nat) (bus0 bus1 : Nat × Nat) : Record × Record :=
  (⟨.C, (205, y), .W, bus0, bus1, 3⟩, ⟨.I, (206, y), .W, bus0, bus1, 4⟩)

theorem late_islands :
    (islands records).filter (fun p => p.1.stage ≠ p.2.stage) =
      [lateIsland 165 (2, 40) (2, 39), lateIsland 149 (2, 24) (2, 23), lateIsland 133 (2, 8) (2, 7),
        lateIsland 116 (1, 32) (1, 31), lateIsland 100 (1, 16) (1, 15),
        lateIsland 83 (0, 40) (0, 39), lateIsland 67 (0, 24) (0, 23), lateIsland 51 (0, 8) (0, 7)] := by
  rw [islands_records]
  decide +kernel

end FpgaPartialReconfig.SoftNoc
